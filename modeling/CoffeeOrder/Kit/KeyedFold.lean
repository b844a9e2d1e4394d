import Mathlib.Data.List.Basic
import Mathlib.Data.List.Induction
import Mathlib.Data.List.Nodup
import Mathlib.Logic.Function.Basic

/-!
# Operations on separate cells

Operations that each change one cell of a family, and nothing else, may be
reordered as long as the operations on each cell keep their order; operations
that change nothing may be placed anywhere. What an operation finds in its cell
is then the same in both orders.
-/

namespace CoffeeOrder.Kit

variable {ι κ ν : Type*} [DecidableEq κ] (key : ι → κ) (op : ι → ν → ν)

/-- Apply the operations of a list one after another, each to the cell of its key. -/
def applyKeyed (cells : κ → ν) (l : List ι) : κ → ν :=
  l.foldl (fun cells i => Function.update cells (key i) (op i (cells (key i)))) cells

variable {key op} {cells : κ → ν}

/-- Without operations every cell is as it was. -/
@[simp] theorem applyKeyed_nil : applyKeyed key op cells [] = cells := rfl

/-- The last operation acts on its own cell only. -/
@[simp] theorem applyKeyed_snoc (l : List ι) (i : ι) :
    applyKeyed key op cells (l ++ [i]) =
      Function.update (applyKeyed key op cells l) (key i)
        (op i (applyKeyed key op cells l (key i))) := by
  simp [applyKeyed]

variable {active : ι → Prop} [DecidablePred active]

/-- A cell only depends on the operations with its key, and operations that
change nothing may be left out. -/
theorem applyKeyed_eq_foldl (hidle : ∀ i, ¬active i → ∀ v, op i v = v) (l : List ι)
    (k : κ) :
    applyKeyed key op cells l k =
      (l.filter fun i => active i ∧ key i = k).foldl (fun v i => op i v) (cells k) := by
  induction l using List.reverseRecOn with
  | nil => rfl
  | append_singleton l i ih =>
    rw [applyKeyed_snoc]
    by_cases hk : key i = k
    · by_cases hactive : active i
      · simp [List.filter_append, hk, hactive, ih]
      · simp [List.filter_append, hk, hactive, ih, hidle i hactive]
    · simp [List.filter_append, hk, ih, Function.update_of_ne (Ne.symm hk)]

/-- **Reordering.** Two lists whose active operations stand in the same order on
each key have the same result. -/
theorem applyKeyed_congr (hidle : ∀ i, ¬active i → ∀ v, op i v = v) {l m : List ι}
    (h : ∀ k, (l.filter fun i => active i ∧ key i = k) = m.filter fun i => active i ∧ key i = k) :
    applyKeyed key op cells l = applyKeyed key op cells m := by
  funext k
  rw [applyKeyed_eq_foldl hidle, applyKeyed_eq_foldl hidle, h k]

/-- **Reordering, seen from inside.** In two such lists an active operation finds
the same contents in its cell. -/
theorem applyKeyed_before_congr (cells : κ → ν) (hidle : ∀ i, ¬active i → ∀ v, op i v = v)
    {pre post pre' post' : List ι} {i : ι} (hactive : active i)
    (hnodup : (pre ++ i :: post).Nodup)
    (h : ((pre ++ i :: post).filter fun j => active j ∧ key j = key i) =
      (pre' ++ i :: post').filter fun j => active j ∧ key j = key i) :
    applyKeyed key op cells pre (key i) = applyKeyed key op cells pre' (key i) := by
  have hsplit : (pre.filter fun j => active j ∧ key j = key i) ++
        i :: (post.filter fun j => active j ∧ key j = key i) =
      (pre'.filter fun j => active j ∧ key j = key i) ++
        i :: (post'.filter fun j => active j ∧ key j = key i) := by
    simpa [List.filter_append, hactive] using h
  have hbefore : i ∉ pre.filter fun j => active j ∧ key j = key i := by
    intro hmem
    have hdisjoint := (List.nodup_append.mp hnodup).2.2
    exact hdisjoint i (List.mem_of_mem_filter hmem) i List.mem_cons_self rfl
  have hafter : i ∉ post.filter fun j => active j ∧ key j = key i := by
    intro hmem
    have hnotmem := (List.nodup_cons.mp (List.nodup_append.mp hnodup).2.1).1
    exact hnotmem (List.mem_of_mem_filter hmem)
  have hpre := (List.append_cons_inj_of_notMem hbefore hafter).mp hsplit
  rw [applyKeyed_eq_foldl hidle, applyKeyed_eq_foldl hidle, hpre.1]

end CoffeeOrder.Kit
