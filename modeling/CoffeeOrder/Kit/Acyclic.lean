import Mathlib.Logic.Relation

/-!
# Acyclic relations

A depth-first search lists a node after all that it reaches. Such a list has no cycle
through its members, and a cycle of a union of relations stays in one part or uses an
edge of the other.
-/

namespace CoffeeOrder.Kit

open Relation

variable {α β : Type} {r p q : α → α → Prop}

/-- No node reaches itself. -/
def Acyclic (r : α → α → Prop) : Prop := ∀ a, ¬TransGen r a a

/-- Newest first: what a member leads to stands behind it. -/
def Ordered (r : α → α → Prop) : List α → Prop
  | [] => True
  | a :: rest => (∀ b, r a b → b ∈ rest) ∧ Ordered r rest

namespace Ordered

/-- No edge leaves an ordered list. -/
theorem closed {l : List α} (h : Ordered r l) {a b : α} (ha : a ∈ l) (hab : r a b) : b ∈ l := by
  induction l with
  | nil => exact absurd ha List.not_mem_nil
  | cons c rest ih =>
    obtain rfl | ha := List.mem_cons.mp ha
    · exact List.mem_cons_of_mem _ (h.1 b hab)
    · exact List.mem_cons_of_mem _ (ih h.2 ha)

/-- An ordered list is also closed under paths. -/
theorem closed_trans {l : List α} (h : Ordered r l) {a b : α} (ha : a ∈ l)
    (hab : TransGen r a b) : b ∈ l := by
  induction hab with
  | single hstep => exact h.closed ha hstep
  | tail _ hstep ih => exact h.closed ih hstep

/-- **No cycle** goes through a member of an ordered list. -/
theorem not_cycle {l : List α} (h : Ordered r l) {a : α} (ha : a ∈ l) : ¬TransGen r a a := by
  induction l with
  | nil => exact absurd ha List.not_mem_nil
  | cons c rest ih =>
    by_cases hrest : a ∈ rest
    · exact ih h.2 hrest
    obtain rfl := (List.mem_cons.mp ha).resolve_right hrest
    intro hcycle
    obtain ⟨b, hab, hback⟩ := TransGen.head'_iff.mp hcycle
    have hb := h.1 b hab
    obtain rfl | hback := reflTransGen_iff_eq_or_transGen.mp hback
    · exact hrest hb
    · exact hrest (h.2.closed_trans hb hback)

end Ordered

/-- An edge that lies on a cycle. -/
def OnCycle (r : α → α → Prop) (a b : α) : Prop := r a b ∧ ReflTransGen r b a

/-- Without cycles no edge lies on one. -/
theorem Acyclic.not_onCycle (h : Acyclic r) (a b : α) : ¬OnCycle r a b :=
  fun ⟨hab, hback⟩ => h a (TransGen.head' hab hback)

/-- A path stays in one part or uses an edge of the other. -/
theorem path_split (hr : ∀ a b, r a b → p a b ∨ q a b) {a b : α} (h : TransGen r a b) :
    TransGen p a b ∨
      ∃ c d, q c d ∧ r c d ∧ ReflTransGen r a c ∧ ReflTransGen r d b := by
  induction h with
  | @single b hab =>
    obtain hp | hq := hr a b hab
    · exact .inl (.single hp)
    · exact .inr ⟨a, b, hq, hab, .refl, .refl⟩
  | @tail b c hpath hbc ih =>
    obtain hp | ⟨x, y, hq, hxy, hax, hyb⟩ := ih
    · obtain hp' | hq := hr b c hbc
      · exact .inl (hp.tail hp')
      · exact .inr ⟨b, c, hq, hbc, hpath.to_reflTransGen, .refl⟩
    · exact .inr ⟨x, y, hq, hxy, hax, hyb.tail hbc⟩

/-- If one part has no cycle, a cycle uses an edge of the other. -/
theorem acyclic_iff_of_split (hr : ∀ a b, r a b → p a b ∨ q a b) (hp : Acyclic p) :
    Acyclic r ↔ ∀ a b, q a b → ¬OnCycle r a b := by
  constructor
  · exact fun h a b _ => h.not_onCycle a b
  · intro h a hcycle
    obtain hp' | ⟨c, d, hq, hcd, hac, hda⟩ := path_split hr hcycle
    · exact hp a hp'
    · exact h c d hq ⟨hcd, hda.trans hac⟩

/-- Cycles are kept by maps that keep edges. -/
theorem Acyclic.comap {s : β → β → Prop} (f : α → β) (hs : ∀ a b, r a b → s (f a) (f b))
    (h : Acyclic s) : Acyclic r :=
  fun a hcycle => h (f a) (hcycle.lift f hs)

end CoffeeOrder.Kit
