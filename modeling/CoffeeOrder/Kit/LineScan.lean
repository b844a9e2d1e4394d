import Mathlib.Data.List.Infix

/-!
# Scanning a text for lines that match

`findAll` is a search for all matches of a pattern anchored at line starts, from left to
right and without overlap. A match at a line start is found if no earlier match can
swallow that line start.
-/

namespace CoffeeOrder.Kit

variable {α β : Type}

/-- A suffix that starts with `x` lies behind a part without `x`. -/
theorem suffix_of_suffix_append {x : α} {t before rest : List α} (hx : x ∉ before)
    (h : x :: t <:+ before ++ rest) : x :: t <:+ rest := by
  induction before with
  | nil => exact h
  | cons y before ih =>
    obtain heq | hsuffix := List.suffix_cons_iff.mp h
    · exact absurd (List.cons.inj heq).1 (List.ne_of_not_mem_cons hx)
    · exact ih (List.not_mem_of_not_mem_cons hx) hsuffix

/-- What `dropWhile` leaves keeps a suffix, or is what it leaves of the suffix. -/
theorem suffix_dropWhile (p : α → Bool) {s l : List α} (h : s <:+ l) :
    s <:+ l.dropWhile p ∨ l.dropWhile p = s.dropWhile p := by
  induction l with
  | nil =>
    obtain rfl := List.suffix_nil.mp h
    exact .inr rfl
  | cons x l ih =>
    obtain rfl | hsuffix := List.suffix_cons_iff.mp h
    · exact .inr rfl
    · rw [List.dropWhile_cons]
      split
      · exact ih hsuffix
      · exact .inl h

section FindAll

variable [DecidableEq α] (matchAt : List α → Option (β × List α)) (newline : α)

/-- The matches in the text, given whether it starts a line. -/
def findAllFrom : ℕ → Bool → List α → List β
  | 0, _, _ => []
  | fuel + 1, atLine, text =>
    match if atLine then matchAt text else none with
    | some (found, rest) => found :: findAllFrom fuel false rest
    | none =>
      match text with
      | [] => []
      | c :: rest => findAllFrom fuel (c = newline) rest

/-- All matches of a pattern that starts at line starts, ends inside a line and is not
empty. -/
def findAll (text : List α) : List β := findAllFrom matchAt newline (text.length + 1) true text

variable {matchAt newline}

/-- **Completeness of the scan.** -/
theorem mem_findAll {target text after : List α} {found : β}
    (hfound : matchAt target = some (found, after))
    (hless : ∀ text b rest, matchAt text = some (b, rest) → rest.length < text.length)
    (hkeeps : ∀ text b rest, newline :: target <:+ text → matchAt text = some (b, rest) →
      b = found ∨ newline :: target <:+ rest)
    (h : newline :: target <:+ text) : found ∈ findAll matchAt newline text := by
  have hscan : ∀ (fuel : ℕ) (atLine : Bool) (text : List α), text.length < fuel →
      newline :: target <:+ text ∨ (atLine = true ∧ text = target) →
      found ∈ findAllFrom matchAt newline fuel atLine text := by
    intro fuel
    induction fuel with
    | zero => exact fun _ text hfuel => absurd hfuel (Nat.not_lt_zero _)
    | succ fuel ih =>
      intro atLine text hfuel hpos
      unfold findAllFrom
      split
      · rename_i b rest hmatch
        have hat : matchAt text = some (b, rest) := by
          split at hmatch
          · exact hmatch
          · exact nomatch hmatch
        obtain hsuffix | ⟨-, rfl⟩ := hpos
        · obtain rfl | hrest := hkeeps text b rest hsuffix hat
          · exact List.mem_cons_self
          · have hlength := hless text b rest hat
            exact List.mem_cons_of_mem _ (ih _ _ (by omega) (.inl hrest))
        · rw [hfound] at hat
          obtain ⟨rfl, -⟩ := Prod.mk.inj (Option.some.inj hat)
          exact List.mem_cons_self
      · rename_i hmatch
        obtain hsuffix | ⟨rfl, rfl⟩ := hpos
        · cases text with
          | nil => exact nomatch List.suffix_nil.mp hsuffix
          | cons c rest =>
            refine ih _ _ (Nat.lt_of_succ_lt_succ hfuel) ?_
            obtain heq | hrest := List.suffix_cons_iff.mp hsuffix
            · obtain ⟨rfl, rfl⟩ := List.cons.inj heq
              exact .inr ⟨decide_eq_true rfl, rfl⟩
            · exact .inl hrest
        · rw [if_pos rfl, hfound] at hmatch
          exact nomatch hmatch
  exact hscan _ true text (Nat.lt_succ_self _) (.inl h)

end FindAll

end CoffeeOrder.Kit
