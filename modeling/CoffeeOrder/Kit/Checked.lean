import Mathlib.Data.List.Forall2

/-!
# Computations that raise

A checker is an `Except` computation: it raises at the first check that fails. What
an accepted input satisfies is read off with the `_eq_ok` lemmas, and what a refusal
can be with `ErrorsIn`.
-/

namespace CoffeeOrder.Kit

variable {ε ε' α β σ : Type}

/-- Raise if the condition holds. -/
def raiseIf (bad : Prop) [Decidable bad] (e : ε) : Except ε Unit :=
  if bad then .error e else .ok ()

namespace Checked

/-- A check passes if the bad case is not there. -/
@[simp] theorem raiseIf_eq_ok {bad : Prop} [Decidable bad] {e : ε} {u : Unit} :
    raiseIf bad e = .ok u ↔ ¬bad := by
  unfold raiseIf
  split <;> simp_all

/-- Two computations succeed together if both succeed. -/
theorem bind_eq_ok {x : Except ε α} {f : α → Except ε β} {b : β} :
    (x >>= f) = .ok b ↔ ∃ a, x = .ok a ∧ f a = .ok b := by
  cases x <;> simp [bind, Except.bind]

/-- An error of the first part is the error of the sequence. -/
theorem bind_error_left {x : Except ε α} {f : α → Except ε β} {e : ε} (hx : x = .error e) :
    (x >>= f) = .error e := hx ▸ rfl

/-- The second part goes on from what the first part returns. -/
theorem bind_of_eq_ok {x : Except ε α} {f : α → Except ε β} {a : α} (hx : x = .ok a) :
    (x >>= f) = f a := hx ▸ rfl

/-- So is one of the second part. -/
theorem bind_error_right {x : Except ε α} {f : α → Except ε β} {a : α} {e : ε} (hx : x = .ok a)
    (hf : f a = .error e) : (x >>= f) = .error e := hx ▸ hf

/-- A value is itself and no other. -/
@[simp] theorem pure_eq_ok {a b : α} : (pure a : Except ε α) = .ok b ↔ a = b := by
  simp [pure, Except.pure]

/-- An error is no value. -/
@[simp] theorem throw_eq_ok {e : ε} {a : α} : (throw e : Except ε α) = .ok a ↔ False := by
  simp [throw, throwThe, MonadExceptOf.throw]

/-- What a check guards runs only if the check passes. -/
theorem raiseIf_bind_eq_ok {bad : Prop} [Decidable bad] {e : ε} {f : Unit → Except ε β} {b : β} :
    (raiseIf bad e >>= f) = .ok b ↔ ¬bad ∧ f () = .ok b := by
  rw [bind_eq_ok]
  exact ⟨fun ⟨_, hpass, hrest⟩ => ⟨raiseIf_eq_ok.1 hpass, hrest⟩,
    fun ⟨hpass, hrest⟩ => ⟨(), raiseIf_eq_ok.2 hpass, hrest⟩⟩

/-- After a check that passes, the next error counts. -/
theorem raiseIf_bind_error {bad : Prop} [Decidable bad] {e e' : ε} {f : Unit → Except ε β}
    (hpass : ¬bad) (hf : f () = .error e') : (raiseIf bad e >>= f) = .error e' :=
  bind_error_right (raiseIf_eq_ok.2 hpass) hf

/-- Renaming errors accepts the same values. -/
theorem mapError_eq_ok {f : ε → ε'} {x : Except ε α} {a : α} :
    x.mapError f = .ok a ↔ x = .ok a := by
  cases x with
  | ok b => simp [Except.mapError]
  | error e => exact iff_of_false nofun nofun

/-- A list is accepted if every element is. -/
theorem mapM_eq_ok {f : α → Except ε β} {xs : List α} {ys : List β} :
    xs.mapM f = .ok ys ↔ List.Forall₂ (fun x y => f x = .ok y) xs ys := by
  induction xs generalizing ys with
  | nil => cases ys <;> simp
  | cons x xs ih =>
    rw [List.mapM_cons, bind_eq_ok]
    constructor
    · rintro ⟨y, hy, hrest⟩
      obtain ⟨ys', hys, hcons⟩ := bind_eq_ok.1 hrest
      obtain rfl := pure_eq_ok.1 hcons
      exact .cons hy (ih.mp hys)
    · rintro (_ | ⟨hy, hys⟩)
      exact ⟨_, hy, bind_eq_ok.2 ⟨_, ih.mpr hys, rfl⟩⟩

/-- A function that succeeds on every element succeeds on the list. -/
theorem mapM_eq_ok_map {f : α → Except ε β} {g : α → β} {xs : List α}
    (h : ∀ x ∈ xs, f x = .ok (g x)) : xs.mapM f = .ok (xs.map g) :=
  mapM_eq_ok.2 (List.forall₂_map_right_iff.mpr (List.forall₂_same.mpr h))

/-- Every element of an accepted list has its result. -/
theorem exists_of_mapM_eq_ok {f : α → Except ε β} {xs : List α} {ys : List β}
    (h : xs.mapM f = .ok ys) {x : α} (hx : x ∈ xs) : ∃ y ∈ ys, f x = .ok y := by
  induction mapM_eq_ok.1 h with
  | nil => exact absurd hx List.not_mem_nil
  | @cons x' y xs ys hy hys ih =>
    obtain rfl | hx := List.mem_cons.mp hx
    · exact ⟨y, List.mem_cons_self, hy⟩
    · obtain ⟨y', hy', hok⟩ := ih (mapM_eq_ok.2 hys) hx
      exact ⟨y', List.mem_cons_of_mem _ hy', hok⟩

/-- Every result of a loop comes from an item. -/
theorem exists_source_of_mapM_eq_ok {f : α → Except ε β} {xs : List α} {ys : List β}
    (h : xs.mapM f = .ok ys) {y : β} (hy : y ∈ ys) : ∃ x ∈ xs, f x = .ok y := by
  induction mapM_eq_ok.1 h with
  | nil => exact nomatch hy
  | cons hfirst hrest ih =>
    obtain rfl | hy := List.mem_cons.mp hy
    · exact ⟨_, List.mem_cons_self, hfirst⟩
    · obtain ⟨x, hx, hok⟩ := ih (mapM_eq_ok.2 hrest) hy
      exact ⟨x, List.mem_cons_of_mem _ hx, hok⟩

/-- A check of a list passes if it passes for every element. -/
theorem forM_eq_ok {f : α → Except ε Unit} {xs : List α} {u : Unit} :
    xs.forM f = .ok u ↔ ∀ x ∈ xs, f x = .ok () := by
  induction xs with
  | nil => exact iff_of_true rfl (by simp)
  | cons x xs ih =>
    rw [List.forall_mem_cons, ← ih]
    refine bind_eq_ok.trans ?_
    exact ⟨fun ⟨_, hx, hxs⟩ => ⟨hx, hxs⟩, fun ⟨hx, hxs⟩ => ⟨(), hx, hxs⟩⟩

/-- **Invariants of checking loops.** -/
theorem foldlM_invariant {f : σ → α → Except ε σ} {P : σ → Prop} {xs : List α} {s t : σ}
    (hstep : ∀ s x t, x ∈ xs → f s x = .ok t → P s → P t) (h : xs.foldlM f s = .ok t) (hs : P s) :
    P t := by
  induction xs generalizing s with
  | nil =>
    obtain rfl := pure_eq_ok.1 h
    exact hs
  | cons x xs ih =>
    rw [List.foldlM_cons, bind_eq_ok] at h
    obtain ⟨s', hx, hxs⟩ := h
    exact ih (fun s y t hy => hstep s y t (List.mem_cons_of_mem x hy)) hxs
      (hstep s x s' List.mem_cons_self hx hs)

/-- A loop each of whose passes records its element records the whole list. -/
theorem foldlM_records {f : σ → α → Except ε σ} {r : σ → List β} {g : α → β} {xs : List α}
    {s t : σ} (hstep : ∀ s x t, f s x = .ok t → r t = r s ++ [g x])
    (h : xs.foldlM f s = .ok t) : r t = r s ++ xs.map g := by
  induction xs generalizing s with
  | nil =>
    obtain rfl := pure_eq_ok.1 h
    exact (List.append_nil _).symm
  | cons x xs ih =>
    rw [List.foldlM_cons, bind_eq_ok] at h
    obtain ⟨s', hx, hxs⟩ := h
    rw [ih hxs, hstep s x s' hx, List.append_assoc, List.map_cons, List.singleton_append]

end Checked

/-- Every error that the computation can raise satisfies `P`. -/
def ErrorsIn (P : ε → Prop) (x : Except ε α) : Prop := ∀ e, x = .error e → P e

namespace ErrorsIn

variable {P : ε → Prop}

/-- A value is no error. -/
@[simp] theorem ok {a : α} : ErrorsIn P (.ok a) := fun _ h => nomatch h

/-- The errors of an error are that one. -/
@[simp] theorem error {e : ε} : ErrorsIn P (.error e : Except ε α) ↔ P e :=
  ⟨fun h => h e rfl, fun h _ he => Except.error.inj he ▸ h⟩

/-- A value is no error. -/
@[simp] theorem pure {a : α} : ErrorsIn P (Pure.pure a : Except ε α) := ok

/-- The errors of an error are that one. -/
@[simp] theorem throw {e : ε} : ErrorsIn P (MonadExcept.throw e : Except ε α) ↔ P e := error

/-- The computation returns, or raises such an error. -/
theorem iff_exists {x : Except ε α} :
    ErrorsIn P x ↔ (∃ a, x = .ok a) ∨ ∃ e, P e ∧ x = .error e := by
  cases x with
  | ok a => simp
  | error e => simp

/-- The same for the errors of one form. -/
theorem iff_exists_eq {γ : Type} {form : γ → ε} {x : Except ε α} :
    ErrorsIn (fun e => ∃ c, e = form c) x ↔ (∃ a, x = .ok a) ∨ ∃ c, x = .error (form c) := by
  cases x with
  | ok a => simp
  | error e => simp

/-- A check raises only its own error. -/
theorem raiseIf {bad : Prop} [Decidable bad] {e : ε} (h : P e) :
    ErrorsIn P (Kit.raiseIf bad e) := by
  unfold Kit.raiseIf
  split <;> simp [h]

/-- The errors of two computations are those of the first and, where it succeeds, of the second.
-/
theorem bind {x : Except ε α} {f : α → Except ε β} (hx : ErrorsIn P x)
    (hf : ∀ a, x = .ok a → ErrorsIn P (f a)) : ErrorsIn P (x >>= f) := by
  cases x with
  | ok a => exact hf a rfl
  | error e => exact error.2 (hx e rfl)

/-- A weaker condition on the errors. -/
theorem mono {Q : ε → Prop} {x : Except ε α} (hx : ErrorsIn P x) (h : ∀ e, P e → Q e) :
    ErrorsIn Q x := fun e he => h e (hx e he)

/-- The errors of a choice are those of its branches. -/
theorem ite {c : Prop} [Decidable c] {x y : Except ε α} (hx : ErrorsIn P x) (hy : ErrorsIn P y) :
    ErrorsIn P (if c then x else y) := by
  split <;> assumption

/-- The errors of a map are those of its elements. -/
theorem mapM {f : α → Except ε β} {xs : List α} (h : ∀ x, ErrorsIn P (f x)) :
    ErrorsIn P (xs.mapM f) := by
  induction xs with
  | nil => exact pure
  | cons x xs ih =>
    rw [List.mapM_cons]
    exact (h x).bind fun _ _ => ih.bind fun _ _ => pure

/-- The errors of a check of a list are those of its elements. -/
theorem forM {f : α → Except ε Unit} {xs : List α} (h : ∀ x, ErrorsIn P (f x)) :
    ErrorsIn P (xs.forM f) := by
  induction xs with
  | nil => exact pure
  | cons x xs ih => exact (h x).bind fun _ _ => ih

/-- The errors of a fold are those of its steps. -/
theorem foldlM {f : σ → α → Except ε σ} {xs : List α} {s : σ}
    (h : ∀ s, ∀ x ∈ xs, ErrorsIn P (f s x)) : ErrorsIn P (xs.foldlM f s) := by
  induction xs generalizing s with
  | nil => exact pure
  | cons x xs ih =>
    exact (h s x List.mem_cons_self).bind fun _ _ =>
      ih fun s y hy => h s y (List.mem_cons_of_mem x hy)

/-- Translated errors. -/
theorem mapError {Q : ε' → Prop} {x : Except ε α} {f : ε → ε'} (hx : ErrorsIn P x)
    (hf : ∀ e, P e → Q (f e)) : ErrorsIn Q (x.mapError f) := by
  cases x with
  | ok a => exact ok
  | error e => exact error.2 (hf e (hx e rfl))

end ErrorsIn

end CoffeeOrder.Kit
