import Mathlib.Logic.Relation
import Mathlib.Data.List.Induction

/-!
# Label-driven machines

A machine is a partial function from a state and a label to the next state;
a label that is not enabled gives `none`. Everything nondeterministic (which
party moves, what the environment answers) is carried by the label, so a run is
a list of labels and can be evaluated. Invariants are proved here once, by
induction on the run; each machine only supplies its step lemma.
-/

namespace CoffeeOrder.Kit

variable {σ ℓ : Type*} (step : σ → ℓ → Option σ)

/-- The state after a list of labels, or `none` if one of them is not enabled. -/
def runs : σ → List ℓ → Option σ
  | s, [] => some s
  | s, l :: ls => (step s l).bind fun t => runs t ls

/-- A state some run leads to. -/
def Reachable (init s : σ) : Prop := ∃ ls, runs step init ls = some s

/-- The empty run stays where it starts. -/
@[simp] theorem runs_nil (s : σ) : runs step s [] = some s := rfl

/-- A run is its first step and the rest. -/
@[simp] theorem runs_cons (s : σ) (l : ℓ) (ls : List ℓ) :
    runs step s (l :: ls) = (step s l).bind fun t => runs step t ls := rfl

/-- A run of concatenated labels is the second run after the first. -/
theorem runs_append (s : σ) (ls ms : List ℓ) :
    runs step s (ls ++ ms) = (runs step s ls).bind fun t => runs step t ms := by
  induction ls generalizing s with
  | nil => rfl
  | cons l ls ih =>
    cases h : step s l with
    | none => simp [h]
    | some t => simpa [h] using ih t

/-- The last step of a run, separated from the steps before it. -/
theorem runs_snoc_eq_some {s u : σ} {ls : List ℓ} {l : ℓ} :
    runs step s (ls ++ [l]) = some u ↔ ∃ t, runs step s ls = some t ∧ step t l = some u := by
  rw [runs_append, Option.bind_eq_some_iff]
  constructor
  · rintro ⟨t, hrun, hlast⟩
    exact ⟨t, hrun, by simpa using hlast⟩
  · rintro ⟨t, hrun, hlast⟩
    exact ⟨t, hrun, by simpa using hlast⟩

/-- A test of the state that a run leads to shows that there is one. -/
theorem exists_of_any_runs (s : σ) (ls : List ℓ) (test : σ → Bool)
    (h : (runs step s ls).any test = true) : ∃ t, runs step s ls = some t ∧ test t = true :=
  (Option.any_eq_true_iff_get test _).mp h |>.elim fun hsome htest =>
    ⟨_, (Option.some_get hsome).symm, htest⟩

/-- The initial state is reachable. -/
theorem Reachable.refl (init : σ) : Reachable step init init := ⟨[], rfl⟩

/-- A step from a reachable state leads to a reachable state. -/
theorem Reachable.snoc {init s t : σ} {l : ℓ} (h : Reachable step init s)
    (hstep : step s l = some t) : Reachable step init t := by
  obtain ⟨ls, hrun⟩ := h
  exact ⟨ls ++ [l], (runs_snoc_eq_some step).mpr ⟨s, hrun, hstep⟩⟩

variable {step}

/-- **Run rule.** What holds at the start and survives every step holds at the
end of every run. The invariant may speak about the labels so far. -/
theorem runs_induction {P : List ℓ → σ → Prop} {init : σ} (hinit : P [] init)
    (hstep : ∀ ls s l t, runs step init ls = some s → P ls s → step s l = some t → P (ls ++ [l]) t)
    {ls : List ℓ} {s : σ} (hrun : runs step init ls = some s) : P ls s := by
  induction ls using List.reverseRecOn generalizing s with
  | nil =>
    obtain rfl : init = s := by simpa using hrun
    exact hinit
  | append_singleton ls l ih =>
    obtain ⟨t, hprefix, hlast⟩ := (runs_snoc_eq_some step).mp hrun
    exact hstep ls t l s hprefix (ih hprefix) hlast

/-- **Invariant rule.** An invariant of the start state kept by every step holds
in every reachable state. -/
theorem Reachable.invariant {I : σ → Prop} {init s : σ} (h : Reachable step init s)
    (hinit : I init) (hstep : ∀ s l t, I s → step s l = some t → I t) : I s := by
  obtain ⟨ls, hrun⟩ := h
  exact runs_induction (P := fun _ s => I s) hinit (fun _ s l t _ hI => hstep s l t hI) hrun

variable (step)

/-- Every step of a run is taken in a state, and with a label, that satisfy `ok`. -/
def StepsMeet (ok : σ → ℓ → Prop) : σ → List ℓ → Prop
  | _, [] => True
  | s, l :: ls => ok s l ∧ ∀ t, step s l = some t → StepsMeet ok t ls

variable {step}

/-- Whether the steps of a concrete run meet a condition can be computed. -/
instance StepsMeet.decidable {ok : σ → ℓ → Prop} [∀ s l, Decidable (ok s l)] :
    ∀ s ls, Decidable (StepsMeet step ok s ls)
  | _, [] => .isTrue trivial
  | s, l :: ls =>
    have : Decidable (∀ t, step s l = some t → StepsMeet step ok t ls) :=
      match step s l with
      | none => .isTrue fun _ ht => nomatch ht
      | some t =>
        have : Decidable (StepsMeet step ok t ls) := StepsMeet.decidable t ls
        decidable_of_iff (StepsMeet step ok t ls)
          ⟨fun h _ ht => Option.some.inj ht ▸ h, fun h => h t rfl⟩
    inferInstanceAs (Decidable (_ ∧ _))

/-- A condition on the labels alone. -/
theorem StepsMeet.of_forall {ok : ℓ → Prop} {s : σ} {ls : List ℓ} (h : ∀ l ∈ ls, ok l) :
    StepsMeet step (fun _ l => ok l) s ls := by
  induction ls generalizing s with
  | nil => trivial
  | cons l ls ih =>
    exact ⟨h l List.mem_cons_self, fun t _ => ih fun k hk => h k (List.mem_cons_of_mem l hk)⟩

/-- A condition on the steps of two runs in a row holds of the steps of both. -/
theorem StepsMeet.append {ok : σ → ℓ → Prop} {s t : σ} {ls ms : List ℓ}
    (h : StepsMeet step ok s (ls ++ ms)) (hrun : runs step s ls = some t) :
    StepsMeet step ok s ls ∧ StepsMeet step ok t ms := by
  induction ls generalizing s with
  | nil =>
    obtain rfl : s = t := by simpa using hrun
    exact ⟨trivial, h⟩
  | cons k ls ih =>
    rw [runs_cons, Option.bind_eq_some_iff] at hrun
    obtain ⟨u, hstep, hrest⟩ := hrun
    obtain ⟨hinit, hlast⟩ := ih (h.2 u hstep) hrest
    refine ⟨⟨h.1, fun v hv => ?_⟩, hlast⟩
    obtain rfl : u = v := Option.some.inj (hstep.symm.trans hv)
    exact hinit

/-- A condition on the steps of a longer run holds of the steps before the last
one, and of the last step itself. -/
theorem StepsMeet.snoc {ok : σ → ℓ → Prop} {s t : σ} {ls : List ℓ} {l : ℓ}
    (h : StepsMeet step ok s (ls ++ [l])) (hrun : runs step s ls = some t) :
    StepsMeet step ok s ls ∧ ok t l := by
  obtain ⟨hinit, hlast⟩ := h.append hrun
  exact ⟨hinit, hlast.1⟩

/-- **Guarded run rule.** An invariant kept by every step that meets a condition
holds at the end of every run all of whose steps meet it. -/
theorem invariant_of_stepsMeet {ok : σ → ℓ → Prop} {I : σ → Prop} {init s : σ} {ls : List ℓ}
    (hmeet : StepsMeet step ok init ls) (hrun : runs step init ls = some s) (hinit : I init)
    (hstep : ∀ s l t, I s → ok s l → step s l = some t → I t) : I s := by
  induction ls using List.reverseRecOn generalizing s with
  | nil =>
    obtain rfl : init = s := by simpa using hrun
    exact hinit
  | append_singleton ls l ih =>
    obtain ⟨t, hprefix, hlast⟩ := (runs_snoc_eq_some step).mp hrun
    obtain ⟨hmeets, hok⟩ := hmeet.snoc hprefix
    exact hstep t l s (ih hmeets hprefix) hok hlast

end CoffeeOrder.Kit
