import Mathlib.Data.List.Basic

/-!
# Deliveries in the order of a history

Entries of a growing history wait to be delivered. As long as no delivery
overtakes a waiting entry that comes earlier in the history, the delivered
entries stand in the history's order; entries may be lost on the way.
-/

namespace CoffeeOrder.Kit

open scoped List

variable {α : Type*}

/-- The history can be cut so that everything delivered comes, in order, from the
part before the cut and everything waiting from the part after it. -/
def InOrder (history delivered waiting : List α) : Prop :=
  ∃ before_ after_, history = before_ ++ after_ ∧ delivered <+ before_ ∧ waiting ⊆ after_

namespace InOrder

variable {history delivered waiting waiting' : List α}

/-- Nothing is delivered in the order of the empty history. -/
theorem nil : InOrder ([] : List α) [] [] := ⟨[], [], rfl, List.Sublist.refl _, by simp⟩

/-- What was delivered in order is a part of the history. -/
theorem sublist (h : InOrder history delivered waiting) : delivered <+ history := by
  obtain ⟨before_, after_, rfl, hdelivered, -⟩ := h
  exact hdelivered.trans (List.sublist_append_left _ _)

/-- Waiting entries may get lost. -/
theorem lose (h : InOrder history delivered waiting) (hsub : waiting' ⊆ waiting) :
    InOrder history delivered waiting' := by
  obtain ⟨before_, after_, rfl, hdelivered, hwaiting⟩ := h
  exact ⟨before_, after_, rfl, hdelivered, List.Subset.trans hsub hwaiting⟩

/-- New entries join the history and wait. -/
theorem extend {new : List α} (h : InOrder history delivered waiting)
    (hsub : waiting' ⊆ waiting ++ new) : InOrder (history ++ new) delivered waiting' := by
  obtain ⟨before_, after_, rfl, hdelivered, hwaiting⟩ := h
  refine ⟨before_, after_ ++ new, List.append_assoc .., hdelivered, List.Subset.trans hsub ?_⟩
  exact List.append_subset.mpr
    ⟨List.Subset.trans hwaiting (List.subset_append_left _ _), List.subset_append_right _ _⟩

/-- A waiting entry is delivered that overtakes no waiting one. -/
theorem deliver {x : α} (h : InOrder history delivered waiting) (hx : x ∈ waiting)
    (hahead : ∀ y ∈ waiting, ¬[y, x] <+ history) (hsub : waiting' ⊆ waiting)
    (hgone : x ∉ waiting') : InOrder history (delivered ++ [x]) waiting' := by
  obtain ⟨before_, after_, rfl, hdelivered, hwaiting⟩ := h
  obtain ⟨skipped, rest, rfl⟩ := List.append_of_mem (hwaiting hx)
  refine ⟨before_ ++ skipped ++ [x], rest, by simp, ?_, fun y hy => ?_⟩
  · exact (hdelivered.trans (List.sublist_append_left _ _)).append (List.Sublist.refl _)
  · rcases List.mem_append.mp (hwaiting (hsub hy)) with hskipped | hrest
    · refine absurd ?_ (hahead y (hsub hy))
      have hpair : [y] ++ [x] <+ skipped ++ x :: rest :=
        (List.singleton_sublist.mpr hskipped).append (by simp)
      exact hpair.trans (List.sublist_append_right _ _)
    · rcases List.mem_cons.mp hrest with rfl | hrest
      · exact absurd hy hgone
      · exact hrest

end InOrder

end CoffeeOrder.Kit
