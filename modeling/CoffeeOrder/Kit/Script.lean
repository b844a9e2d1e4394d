import CoffeeOrder.Kit.Checked
import Mathlib.Data.List.Basic

/-!
# Scripts that ask the world

A script issues operations one after another and goes on from their answers, or
raises. `exec` runs it in a world that answers as it likes and may change with each
operation; `replay` runs it on recorded answers. `Safe` is the weakest precondition
of a script: every operation is issued only when the steps so far satisfy a guard,
and the result satisfies a postcondition, whatever the answers are. `Within` is its
part that looks at one operation and one error at a time, `Meets` the part that looks at
results, under assumptions on the answers, and `Yields` looks at results and steps under such
assumptions.
-/

namespace CoffeeOrder.Kit

variable {ε ε' Op : Type} {Ans : Op → Type} {α β σ : Type}

/-- An operation and its answer. -/
structure Step {Op : Type} (Ans : Op → Type) where
  op : Op
  answer : Ans op

/-- A computation that returns, raises, or asks for one operation and goes on. -/
inductive Script (ε : Type) {Op : Type} (Ans : Op → Type) (α : Type)
  | done (a : α)
  | throw (e : ε)
  | ask (op : Op) (next : Ans op → Script ε Ans α)

namespace Script

/-- Sequencing. -/
def bind : Script ε Ans α → (α → Script ε Ans β) → Script ε Ans β
  | .done a, f => f a
  | .throw e, _ => .throw e
  | .ask op next, f => .ask op fun answer => (next answer).bind f

/-- The handler takes over where the script raises. -/
def tryCatch : Script ε Ans α → (ε → Script ε' Ans α) → Script ε' Ans α
  | .done a, _ => .done a
  | .throw e, handler => handler e
  | .ask op next, handler => .ask op fun answer => (next answer).tryCatch handler

instance : Monad (Script ε Ans) where
  pure := .done
  bind := .bind

instance : MonadExcept ε (Script ε Ans) where
  throw := .throw
  tryCatch := .tryCatch

/-- What follows a value. -/
@[simp] theorem pure_bind (a : α) (f : α → Script ε Ans β) :
    (pure a >>= f : Script ε Ans β) = f a := rfl

/-- An error ends the script. -/
@[simp] theorem throw_bind (e : ε) (f : α → Script ε Ans β) :
    (MonadExcept.throw e >>= f : Script ε Ans β) = MonadExcept.throw e := rfl

/-- Three scripts one after the other. -/
theorem bind_assoc {γ : Type} (p : Script ε Ans α) (f : α → Script ε Ans β)
    (g : β → Script ε Ans γ) : p >>= f >>= g = p >>= fun a => f a >>= g := by
  induction p with
  | done a => rfl
  | throw e => rfl
  | ask op next ih => exact congrArg (ask op) (funext ih)

/-- Raise what a computation has raised, or return its value. -/
def ofExcept : Except ε α → Script ε Ans α
  | .ok a => .done a
  | .error e => .throw e

/-- Raise the errors under another name. -/
def mapError (f : ε → ε') (p : Script ε Ans α) : Script ε' Ans α := p.tryCatch fun e => .throw (f e)

/-- What was raised or returned, as a value. -/
def attempt : Script ε Ans α → Script ε' Ans (Except ε α)
  | .done a => .done (.ok a)
  | .throw e => .done (.error e)
  | .ask op next => .ask op fun answer => (next answer).attempt

/-- `try: p finally: cleanup`. What the cleanup raises replaces the result. -/
def withFinally (p : Script ε Ans α) (cleanup : Script ε Ans Unit) : Script ε Ans α :=
  p.attempt >>= fun r => cleanup >>= fun _ => ofExcept r

instance : MonadLift (Except ε) (Script ε Ans) := ⟨ofExcept⟩

/-- Run a script in a world: its steps, its result and the world afterwards. -/
def exec (world : σ → (op : Op) → Ans op × σ) :
    Script ε Ans α → σ → List (Step Ans) × Except ε α × σ
  | .done a, s => ([], .ok a, s)
  | .throw e, s => ([], .error e, s)
  | .ask op next, s =>
    let answered := world s op
    let rest := (next answered.1).exec world answered.2
    (⟨op, answered.1⟩ :: rest.1, rest.2)

/-- The result of a script that issues exactly the recorded operations and gets the
recorded answers. -/
def replay [DecidableEq Op] : Script ε Ans α → List (Step Ans) → Option (Except ε α)
  | .done a, [] => some (.ok a)
  | .throw e, [] => some (.error e)
  | .ask op next, step :: steps =>
    if h : step.op = op then (next (h ▸ step.answer)).replay steps else none
  | _, _ => none

/-- A run in a world can be replayed. -/
theorem replay_exec [DecidableEq Op] (world : σ → (op : Op) → Ans op × σ) (p : Script ε Ans α)
    (s : σ) : p.replay (p.exec world s).1 = some (p.exec world s).2.1 := by
  induction p generalizing s with
  | done a => rfl
  | throw e => rfl
  | ask op next ih => simpa [exec, replay] using ih (world s op).1 (world s op).2

/-- What a world guarantees of its answers holds of the steps of its runs. -/
theorem exec_answers {A : (op : Op) → Ans op → Prop} {world : σ → (op : Op) → Ans op × σ}
    (h : ∀ s op, A op (world s op).1) (p : Script ε Ans α) (s : σ) :
    ∀ step ∈ (p.exec world s).1, A step.op step.answer := by
  induction p generalizing s with
  | done a => simp [exec]
  | throw e => simp [exec]
  | ask op next ih => exact List.forall_mem_cons.mpr ⟨h s op, ih _ _⟩

/-- The steps are the first ones of a run that may go on. -/
def Begins [DecidableEq Op] (p : Script ε Ans α) (steps : List (Step Ans)) : Prop :=
  ∃ rest r, p.replay (steps ++ rest) = some r

section Replay

variable [DecidableEq Op] {steps : List (Step Ans)}

/-- A trace that a script can replay is the beginning of one of its runs. -/
theorem begins_of_isSome {p : Script ε Ans α} (h : (p.replay steps).isSome = true) :
    p.Begins steps := by
  obtain ⟨r, hreplay⟩ := Option.isSome_iff_exists.mp h
  exact ⟨[], r, by rwa [List.append_nil]⟩

/-- A run that is cut short begins in the same way. -/
theorem Begins.of_append {p : Script ε Ans α} {more : List (Step Ans)}
    (h : p.Begins (steps ++ more)) : p.Begins steps := by
  obtain ⟨rest, r, hreplay⟩ := h
  exact ⟨more ++ rest, r, by rwa [← List.append_assoc]⟩

/-- A script that is done asks nothing. -/
theorem replay_done {a : α} {r : Except ε α} :
    (done a : Script ε Ans α).replay steps = some r ↔ steps = [] ∧ r = .ok a := by
  cases steps <;> simp [replay, eq_comm]

/-- A script that fails asks nothing. -/
theorem replay_throw {e : ε} {r : Except ε α} :
    (throw e : Script ε Ans α).replay steps = some r ↔ steps = [] ∧ r = .error e := by
  cases steps <;> simp [replay, eq_comm]

/-- A run of a script is its first answer and a run of what follows. -/
theorem replay_ask {op : Op} {next : Ans op → Script ε Ans α} {r : Except ε α} :
    (ask op next).replay steps = some r ↔
      ∃ answer rest, steps = ⟨op, answer⟩ :: rest ∧ (next answer).replay rest = some r := by
  rcases steps with _ | ⟨⟨op', answer⟩, rest⟩
  · simp [replay]
  · constructor
    · intro h
      obtain ⟨rfl, hrest⟩ : ∃ hop : op' = op, (next (hop ▸ answer)).replay rest = some r := by
        simpa only [replay, Option.dite_none_right_eq_some] using h
      exact ⟨answer, rest, rfl, hrest⟩
    · rintro ⟨answer', rest', hsteps, hrest⟩
      cases hsteps
      simpa [replay] using hrest

/-- A given result asks nothing. -/
theorem replay_ofExcept {x r : Except ε α} :
    (ofExcept x : Script ε Ans α).replay steps = some r ↔ steps = [] ∧ r = x := by
  cases x with
  | ok a => exact replay_done
  | error e => exact replay_throw

/-- A sequence raises in its first part, or runs its second part after it. -/
theorem replay_bind {p : Script ε Ans α} {f : α → Script ε Ans β} {r : Except ε β} :
    (p >>= f).replay steps = some r ↔
      (∃ e, r = .error e ∧ p.replay steps = some (.error e)) ∨
        ∃ a first second, steps = first ++ second ∧ p.replay first = some (.ok a) ∧
          (f a).replay second = some r := by
  induction p generalizing steps with
  | done a =>
    constructor
    · exact fun h => .inr ⟨a, [], steps, rfl, rfl, h⟩
    · rintro (⟨e, -, he⟩ | ⟨b, first, second, rfl, hfirst, hsecond⟩)
      · exact nomatch (replay_done.1 he).2
      · obtain ⟨rfl, hb⟩ := replay_done.1 hfirst
        exact Except.ok.inj hb ▸ hsecond
  | throw e =>
    constructor
    · exact fun h => .inl ⟨e, (replay_throw.1 h).2, replay_throw.2 ⟨(replay_throw.1 h).1, rfl⟩⟩
    · rintro (⟨e', rfl, he⟩ | ⟨b, first, second, -, hfirst, -⟩)
      · obtain ⟨rfl, he'⟩ := replay_throw.1 he
        exact replay_throw.2 ⟨rfl, congrArg _ (Except.error.inj he')⟩
      · exact nomatch (replay_throw.1 hfirst).2
  | ask op next ih =>
    refine Iff.trans replay_ask ?_
    constructor
    · rintro ⟨answer, rest, rfl, hrest⟩
      obtain ⟨e, hr, he⟩ | ⟨a, first, second, rfl, hfirst, hsecond⟩ := (ih answer).mp hrest
      · exact .inl ⟨e, hr, replay_ask.2 ⟨answer, rest, rfl, he⟩⟩
      · exact .inr ⟨a, ⟨op, answer⟩ :: first, second, rfl,
          replay_ask.2 ⟨answer, first, rfl, hfirst⟩, hsecond⟩
    · rintro (⟨e, hr, he⟩ | ⟨a, first, second, rfl, hfirst, hsecond⟩)
      · obtain ⟨answer, rest, rfl, hrest⟩ := replay_ask.1 he
        exact ⟨answer, rest, rfl, (ih answer).mpr (.inl ⟨e, hr, hrest⟩)⟩
      · obtain ⟨answer, rest, rfl, hrest⟩ := replay_ask.1 hfirst
        exact ⟨answer, rest ++ second, rfl,
          (ih answer).mpr (.inr ⟨a, rest, second, rfl, hrest, hsecond⟩)⟩

/-- A sequence returns if both parts do. -/
theorem replay_bind_ok {p : Script ε Ans α} {f : α → Script ε Ans β} {b : β} :
    (p >>= f).replay steps = some (.ok b) ↔
      ∃ a first second, steps = first ++ second ∧ p.replay first = some (.ok a) ∧
        (f a).replay second = some (.ok b) := by
  rw [replay_bind]
  exact or_iff_right fun ⟨e, hr, _⟩ => nomatch hr

/-- A guarded script returns, or its handler runs after it. -/
theorem replay_tryCatch {p : Script ε Ans α} {handler : ε → Script ε' Ans α} {r : Except ε' α} :
    (p.tryCatch handler).replay steps = some r ↔
      (∃ a, r = .ok a ∧ p.replay steps = some (.ok a)) ∨
        ∃ e first second, steps = first ++ second ∧ p.replay first = some (.error e) ∧
          (handler e).replay second = some r := by
  induction p generalizing steps with
  | done a =>
    constructor
    · exact fun h => .inl ⟨a, (replay_done.1 h).2, replay_done.2 ⟨(replay_done.1 h).1, rfl⟩⟩
    · rintro (⟨b, rfl, hb⟩ | ⟨e, first, second, -, hfirst, -⟩)
      · obtain ⟨rfl, hb'⟩ := replay_done.1 hb
        exact replay_done.2 ⟨rfl, congrArg _ (Except.ok.inj hb')⟩
      · exact nomatch (replay_done.1 hfirst).2
  | throw e =>
    constructor
    · exact fun h => .inr ⟨e, [], steps, rfl, rfl, h⟩
    · rintro (⟨b, -, hb⟩ | ⟨e', first, second, rfl, hfirst, hsecond⟩)
      · exact nomatch (replay_throw.1 hb).2
      · obtain ⟨rfl, he⟩ := replay_throw.1 hfirst
        exact Except.error.inj he ▸ hsecond
  | ask op next ih =>
    refine Iff.trans replay_ask ?_
    constructor
    · rintro ⟨answer, rest, rfl, hrest⟩
      obtain ⟨a, hr, ha⟩ | ⟨e, first, second, rfl, hfirst, hsecond⟩ := (ih answer).mp hrest
      · exact .inl ⟨a, hr, replay_ask.2 ⟨answer, rest, rfl, ha⟩⟩
      · exact .inr ⟨e, ⟨op, answer⟩ :: first, second, rfl,
          replay_ask.2 ⟨answer, first, rfl, hfirst⟩, hsecond⟩
    · rintro (⟨a, hr, ha⟩ | ⟨e, first, second, rfl, hfirst, hsecond⟩)
      · obtain ⟨answer, rest, rfl, hrest⟩ := replay_ask.1 ha
        exact ⟨answer, rest, rfl, (ih answer).mpr (.inl ⟨a, hr, hrest⟩)⟩
      · obtain ⟨answer, rest, rfl, hrest⟩ := replay_ask.1 hfirst
        exact ⟨answer, rest ++ second, rfl,
          (ih answer).mpr (.inr ⟨e, rest, second, rfl, hrest, hsecond⟩)⟩

/-- A handler that never returns leaves the runs that return as they are. -/
theorem replay_tryCatch_ok {p : Script ε Ans α} {handler : ε → Script ε' Ans α} {a : α}
    (hraises : ∀ e rest b, (handler e).replay rest ≠ some (.ok b)) :
    (p.tryCatch handler).replay steps = some (.ok a) ↔ p.replay steps = some (.ok a) := by
  refine Iff.trans replay_tryCatch ⟨?_, fun h => .inl ⟨a, rfl, h⟩⟩
  rintro (⟨b, hb, h⟩ | ⟨e, first, second, -, -, hhandler⟩)
  · exact Except.ok.inj hb ▸ h
  · exact absurd hhandler (hraises e second a)

/-- A question whose answer decides what is returned. -/
theorem replay_ask_ofExcept {op : Op} {next : Ans op → Except ε α} {r : Except ε α} :
    (ask op fun answer => ofExcept (next answer)).replay steps = some r ↔
      ∃ answer, steps = [⟨op, answer⟩] ∧ r = next answer := by
  refine Iff.trans replay_ask ⟨?_, ?_⟩
  · rintro ⟨answer, rest, rfl, hrest⟩
    obtain ⟨rfl, hr⟩ := replay_ofExcept.1 hrest
    exact ⟨answer, rfl, hr⟩
  · rintro ⟨answer, rfl, hr⟩
    exact ⟨answer, [], rfl, replay_ofExcept.2 ⟨rfl, hr⟩⟩

/-- A question whose answer decides whether the script goes on. -/
theorem replay_ask_bind_ok {op : Op} {next : Ans op → Except ε α} {f : α → Script ε Ans β} {b : β} :
    (ask op fun answer => ofExcept (next answer) >>= f).replay steps = some (.ok b) ↔
      ∃ answer a rest, steps = ⟨op, answer⟩ :: rest ∧ next answer = .ok a ∧
        (f a).replay rest = some (.ok b) := by
  refine Iff.trans replay_ask ⟨?_, ?_⟩
  · rintro ⟨answer, rest, rfl, hrest⟩
    obtain ⟨a, first, second, rfl, hfirst, hsecond⟩ := replay_bind_ok.1 hrest
    obtain ⟨rfl, ha⟩ := replay_ofExcept.1 hfirst
    exact ⟨answer, a, second, rfl, ha.symm, hsecond⟩
  · rintro ⟨answer, a, rest, rfl, ha, hrest⟩
    exact ⟨answer, rest, rfl,
      replay_bind_ok.2 ⟨a, [], rest, rfl, replay_ofExcept.2 ⟨rfl, ha.symm⟩, hrest⟩⟩

/-- An attempt returns the result of the script. -/
theorem replay_attempt {p : Script ε Ans α} {x : Except ε' (Except ε α)} :
    (p.attempt : Script ε' Ans (Except ε α)).replay steps = some x ↔
      ∃ r, x = .ok r ∧ p.replay steps = some r := by
  induction p generalizing steps with
  | done a =>
    refine Iff.trans replay_done ⟨fun ⟨hsteps, hx⟩ => ⟨.ok a, hx, replay_done.2 ⟨hsteps, rfl⟩⟩, ?_⟩
    rintro ⟨r, rfl, h⟩
    obtain ⟨rfl, rfl⟩ := replay_done.1 h
    exact ⟨rfl, rfl⟩
  | throw e =>
    refine Iff.trans replay_done
      ⟨fun ⟨hsteps, hx⟩ => ⟨.error e, hx, replay_throw.2 ⟨hsteps, rfl⟩⟩, ?_⟩
    rintro ⟨r, rfl, h⟩
    obtain ⟨rfl, rfl⟩ := replay_throw.1 h
    exact ⟨rfl, rfl⟩
  | ask op next ih =>
    refine Iff.trans replay_ask ⟨?_, ?_⟩
    · rintro ⟨answer, rest, rfl, hrest⟩
      obtain ⟨r, hx, hr⟩ := (ih answer).mp hrest
      exact ⟨r, hx, replay_ask.2 ⟨answer, rest, rfl, hr⟩⟩
    · rintro ⟨r, hx, hr⟩
      obtain ⟨answer, rest, rfl, hrest⟩ := replay_ask.1 hr
      exact ⟨answer, rest, rfl, (ih answer).mpr ⟨r, hx, hrest⟩⟩

/-- Translating the errors changes no run that succeeds. -/
theorem replay_mapError_ok {f : ε → ε'} {p : Script ε Ans α} {a : α} :
    (p.mapError f).replay steps = some (.ok a) ↔ p.replay steps = some (.ok a) := by
  refine Iff.trans replay_tryCatch ⟨?_, fun h => .inl ⟨a, rfl, h⟩⟩
  rintro (⟨b, hb, h⟩ | ⟨e, first, second, -, -, hraised⟩)
  · exact Except.ok.inj hb ▸ h
  · exact nomatch (replay_throw.1 hraised).2

/-- A run does not end before or after the end of another one that begins in the same way. -/
theorem replay_append_unique {p : Script ε Ans α} {first first' rest rest' : List (Step Ans)}
    {r r' : Except ε α} (h : p.replay first = some r) (h' : p.replay first' = some r')
    (hsteps : first ++ rest = first' ++ rest') : first = first' ∧ r = r' ∧ rest = rest' := by
  induction p generalizing first first' with
  | done a =>
    obtain ⟨rfl, rfl⟩ := replay_done.1 h
    obtain ⟨rfl, rfl⟩ := replay_done.1 h'
    exact ⟨rfl, rfl, hsteps⟩
  | throw e =>
    obtain ⟨rfl, rfl⟩ := replay_throw.1 h
    obtain ⟨rfl, rfl⟩ := replay_throw.1 h'
    exact ⟨rfl, rfl, hsteps⟩
  | ask op next ih =>
    obtain ⟨answer, steps, rfl, hnext⟩ := replay_ask.1 h
    obtain ⟨answer', steps', rfl, hnext'⟩ := replay_ask.1 h'
    obtain ⟨hstep, hbehind⟩ := List.cons.inj hsteps
    cases hstep
    obtain ⟨rfl, hr, hrest⟩ := ih answer hnext hnext' hbehind
    exact ⟨rfl, hr, hrest⟩

/-- Somewhere among the steps the script has run, and has returned `a`. -/
def RanIn (p : Script ε Ans α) (steps : List (Step Ans)) (a : α) : Prop :=
  ∃ before_ during after_, steps = before_ ++ (during ++ after_) ∧ p.replay during = some (.ok a)

/-- A script has run in its own trace. -/
theorem ranIn_of_replay {p : Script ε Ans α} {a : α} (h : p.replay steps = some (.ok a)) :
    p.RanIn steps a := ⟨[], steps, [], (List.append_nil _).symm, h⟩

/-- What has run in a trace has run in it after more steps. -/
theorem RanIn.append_left {p : Script ε Ans α} {a : α} (h : p.RanIn steps a)
    (before_ : List (Step Ans)) : p.RanIn (before_ ++ steps) a := by
  obtain ⟨first, during, after_, rfl, hreplay⟩ := h
  exact ⟨before_ ++ first, during, after_, (List.append_assoc ..).symm, hreplay⟩

/-- What has run in a trace has run in it before more steps. -/
theorem RanIn.append_right {p : Script ε Ans α} {a : α} (h : p.RanIn steps a)
    (after_ : List (Step Ans)) : p.RanIn (steps ++ after_) a := by
  obtain ⟨first, during, last, rfl, hreplay⟩ := h
  exact ⟨first, during, last ++ after_, by simp only [List.append_assoc], hreplay⟩

/-- Both parts of a sequence have run. -/
theorem RanIn.bind {p : Script ε Ans α} {f : α → Script ε Ans β} {b : β}
    (h : (p >>= f).RanIn steps b) : ∃ a, p.RanIn steps a ∧ (f a).RanIn steps b := by
  obtain ⟨before_, during, after_, rfl, hreplay⟩ := h
  obtain ⟨a, first, second, rfl, hfirst, hsecond⟩ := replay_bind_ok.1 hreplay
  have hbehind := ((ranIn_of_replay hsecond).append_left first).append_right after_
  exact ⟨a, (((ranIn_of_replay hfirst).append_right second).append_right after_).append_left _,
    hbehind.append_left before_⟩

/-- A given result that has run is a value. -/
theorem RanIn.of_ofExcept {x : Except ε α} {a : α}
    (h : (ofExcept x : Script ε Ans α).RanIn steps a) : x = .ok a := by
  obtain ⟨before_, during, after_, -, hreplay⟩ := h
  exact (replay_ofExcept.1 hreplay).2.symm

/-- A value that has run is the value. -/
theorem RanIn.of_pure {a b : α} (h : (Pure.pure a : Script ε Ans α).RanIn steps b) : b = a := by
  obtain ⟨before_, during, after_, -, hreplay⟩ := h
  exact Except.ok.inj (replay_done.1 hreplay).2

/-- A check that has passed. -/
theorem RanIn.of_ite_throw {c : Prop} [Decidable c] {e : ε} {p : Script ε Ans α} {a : α}
    (h : (if c then MonadExcept.throw e else p).RanIn steps a) : ¬c ∧ p.RanIn steps a := by
  by_cases hc : c
  · rw [if_pos hc] at h
    obtain ⟨before_, during, after_, -, hreplay⟩ := h
    cases (replay_throw.1 hreplay).2
  · rw [if_neg hc] at h
    exact ⟨hc, h⟩

/-- A question has been answered. -/
theorem RanIn.of_ask {op : Op} {answer : Ans op}
    (h : (ask op done : Script ε Ans (Ans op)).RanIn steps answer) : ⟨op, answer⟩ ∈ steps := by
  obtain ⟨before_, during, after_, rfl, hreplay⟩ := h
  obtain ⟨answer', rest, rfl, hrest⟩ := replay_ask.1 hreplay
  obtain ⟨rfl, hanswer⟩ := replay_done.1 hrest
  obtain rfl := Except.ok.inj hanswer
  simp

end Replay

/-- Every operation satisfies `G`, and every error that is raised satisfies `P`. -/
def Within (G : Op → Prop) (P : ε → Prop) : Script ε Ans α → Prop
  | .done _ => True
  | .throw e => P e
  | .ask op next => G op ∧ ∀ answer, (next answer).Within G P

namespace Within

variable {G : Op → Prop} {P P' : ε → Prop}

/-- A value asks nothing. -/
@[simp] theorem pure {a : α} : (Pure.pure a : Script ε Ans α).Within G P := trivial

/-- An error asks nothing and is allowed by itself. -/
@[simp] theorem throw {e : ε} :
    (MonadExcept.throw e : Script ε Ans α).Within G P ↔ P e := Iff.rfl

/-- A given result asks nothing. -/
theorem ofExcept {x : Except ε α} (h : ErrorsIn P x) :
    (Script.ofExcept x : Script ε Ans α).Within G P := by
  cases x with
  | ok a => trivial
  | error e => exact h e rfl

/-- Scripts one after the other stay within what both stay within. -/
theorem bind {p : Script ε Ans α} {f : α → Script ε Ans β} (hp : p.Within G P)
    (hf : ∀ a, (f a).Within G P) : (p >>= f).Within G P := by
  induction p with
  | done a => exact hf a
  | throw e => exact hp
  | ask op next ih => exact ⟨hp.1, fun answer => ih answer (hp.2 answer)⟩

/-- A choice stays within what its branches stay within. -/
theorem ite {c : Prop} [Decidable c] {p q : Script ε Ans α} (hp : p.Within G P)
    (hq : q.Within G P) : (if c then p else q).Within G P := by
  split <;> assumption

/-- A script with a handler stays within what the handler does with its errors. -/
theorem tryCatch {P : ε' → Prop} {p : Script ε Ans α} {handler : ε → Script ε' Ans α}
    (hp : p.Within G P') (hhandler : ∀ e, P' e → (handler e).Within G P) :
    (p.tryCatch handler).Within G P := by
  induction p with
  | done a => trivial
  | throw e => exact hhandler e hp
  | ask op next ih => exact ⟨hp.1, fun answer => ih answer (hp.2 answer)⟩

/-- A script with translated errors asks the same. -/
theorem mapError {P : ε' → Prop} {f : ε → ε'} {p : Script ε Ans α} (hp : p.Within G P')
    (h : ∀ e, P' e → P (f e)) : (p.mapError f).Within G P :=
  hp.tryCatch h

/-- A loop stays within what each round stays within. -/
theorem mapM {γ : Type} {f : γ → Script ε Ans α} {xs : List γ} (h : ∀ x, (f x).Within G P) :
    (xs.mapM f).Within G P := by
  suffices hloop : ∀ (xs : List γ) (found : List α), (List.mapM.loop f xs found).Within G P from
    hloop xs []
  intro xs
  induction xs with
  | nil => exact fun _ => trivial
  | cons x xs ih => exact fun found => (h x).bind fun a => ih (a :: found)

/-- A weaker condition on the errors. -/
theorem mono (hP : ∀ e, P e → P' e) {p : Script ε Ans α} (hp : p.Within G P) : p.Within G P' := by
  induction p with
  | done a => trivial
  | throw e => exact hP e hp
  | ask op next ih => exact ⟨hp.1, fun answer => ih answer (hp.2 answer)⟩

/-- A weaker condition on the operations. -/
theorem imp {G' : Op → Prop} (h : ∀ op, G op → G' op) {p : Script ε Ans α} (hp : p.Within G P) :
    p.Within G' P := by
  induction p with
  | done a => trivial
  | throw e => exact hp
  | ask op next ih => exact ⟨h op hp.1, fun answer => ih answer (hp.2 answer)⟩

/-- What holds of each operation and error holds of those of a run. -/
theorem replay [DecidableEq Op] {p : Script ε Ans α} {steps : List (Step Ans)} {r : Except ε α}
    (hp : p.Within G P) (h : p.replay steps = some r) :
    (∀ step ∈ steps, G step.op) ∧ ErrorsIn P r := by
  induction p generalizing steps with
  | done a =>
    obtain ⟨rfl, rfl⟩ := replay_done.1 h
    exact ⟨by simp, .ok⟩
  | throw e =>
    obtain ⟨rfl, rfl⟩ := replay_throw.1 h
    exact ⟨by simp, ErrorsIn.error.mpr hp⟩
  | ask op next ih =>
    obtain ⟨answer, rest, rfl, hrest⟩ := replay_ask.1 h
    obtain ⟨hsteps, herrors⟩ := ih answer (hp.2 answer) hrest
    exact ⟨List.forall_mem_cons.mpr ⟨hp.1, hsteps⟩, herrors⟩

end Within

/-- As long as the answers satisfy `A`, what is raised satisfies `P` and what is returned
satisfies `Q`. -/
def Meets (A : (op : Op) → Ans op → Prop) (P : ε → Prop) (Q : α → Prop) : Script ε Ans α → Prop
  | .done a => Q a
  | .throw e => P e
  | .ask op next => ∀ answer, A op answer → (next answer).Meets A P Q

namespace Meets

variable {A : (op : Op) → Ans op → Prop} {P : ε → Prop} {Q Q' : α → Prop}

/-- A value meets what holds of it. -/
@[simp] theorem pure {a : α} : (Pure.pure a : Script ε Ans α).Meets A P Q ↔ Q a := Iff.rfl

/-- An error meets what holds of it. -/
@[simp] theorem throw {e : ε} :
    (MonadExcept.throw e : Script ε Ans α).Meets A P Q ↔ P e := Iff.rfl

/-- A given result meets what holds of its error or its value. -/
theorem ofExcept {x : Except ε α} (herror : ∀ e, x = .error e → P e) (hok : ∀ a, x = .ok a → Q a) :
    (Script.ofExcept x : Script ε Ans α).Meets A P Q := by
  cases x with
  | ok a => exact hok a rfl
  | error e => exact herror e rfl

/-- The second script starts from what the first one meets. -/
theorem bind {p : Script ε Ans α} {f : α → Script ε Ans β} {Q' : β → Prop} (hp : p.Meets A P Q)
    (hf : ∀ a, Q a → (f a).Meets A P Q') : (p >>= f).Meets A P Q' := by
  induction p with
  | done a => exact hf a hp
  | throw e => exact hp
  | ask op next ih => exact fun answer hanswer => ih answer (hp answer hanswer)

/-- A choice meets what its branches meet. -/
theorem ite {c : Prop} [Decidable c] {p q : Script ε Ans α} (hp : p.Meets A P Q)
    (hq : q.Meets A P Q) : (if c then p else q).Meets A P Q := by
  split <;> assumption

/-- A weaker condition on the value. -/
theorem mono (h : ∀ a, Q a → Q' a) {p : Script ε Ans α} (hp : p.Meets A P Q) : p.Meets A P Q' := by
  induction p with
  | done a => exact h a hp
  | throw e => exact hp
  | ask op next ih => exact fun answer hanswer => ih answer (hp answer hanswer)

/-- A script with translated errors. -/
theorem mapError {P' : ε' → Prop} {f : ε → ε'} {p : Script ε Ans α} (hp : p.Meets A P Q)
    (h : ∀ e, P e → P' (f e)) : (p.mapError f).Meets A P' Q := by
  induction p with
  | done a => exact hp
  | throw e => exact h e hp
  | ask op next ih => exact fun answer hanswer => ih answer (hp answer hanswer)

/-- Nothing is asked of what is raised or returned. -/
theorem anything (p : Script ε Ans α) : p.Meets A (fun _ => True) fun _ => True := by
  induction p with
  | done a => trivial
  | throw e => trivial
  | ask op next ih => exact fun answer _ => ih answer

/-- A loop that collects the results of its passes. -/
theorem mapM {γ : Type} {f : γ → Script ε Ans α} {R : γ → α → Prop} {xs : List γ}
    (h : ∀ x, (f x).Meets A P (R x)) : (xs.mapM f).Meets A P (List.Forall₂ R xs) := by
  suffices hloop : ∀ (xs done : List γ) (found : List α), List.Forall₂ R done found.reverse →
      (List.mapM.loop f xs found).Meets A P (List.Forall₂ R (done ++ xs)) from
    hloop xs [] [] .nil
  intro xs
  induction xs with
  | nil =>
    intro done found hfound
    simpa [List.mapM.loop] using hfound
  | cons x xs ih =>
    intro done found hfound
    refine (h x).bind fun a ha => ?_
    have hnext := ih (done ++ [x]) (a :: found)
      (by simpa using List.rel_append hfound (.cons ha .nil))
    simpa using hnext

/-- Whatever the answers are, only such errors are raised. -/
theorem of_within {G : Op → Prop} {p : Script ε Ans α} (hp : p.Within G P) :
    p.Meets A P fun _ => True := by
  induction p with
  | done a => trivial
  | throw e => exact hp
  | ask op next ih => exact fun answer _ => ih answer (hp.2 answer)

/-- What holds of what can be raised and returned holds of the result of a run. -/
theorem replay [DecidableEq Op] {p : Script ε Ans α} {steps : List (Step Ans)} {r : Except ε α}
    (hp : p.Meets A P Q) (hsteps : ∀ step ∈ steps, A step.op step.answer)
    (h : p.replay steps = some r) : (∀ e, r = .error e → P e) ∧ ∀ a, r = .ok a → Q a := by
  induction p generalizing steps with
  | done a =>
    obtain ⟨-, rfl⟩ := replay_done.1 h
    exact ⟨nofun, fun b hb => Except.ok.inj hb ▸ hp⟩
  | throw e =>
    obtain ⟨-, rfl⟩ := replay_throw.1 h
    exact ⟨fun e' he => Except.error.inj he ▸ hp, nofun⟩
  | ask op next ih =>
    obtain ⟨answer, rest, rfl, hrest⟩ := replay_ask.1 h
    obtain ⟨hanswer, hsteps⟩ := List.forall_mem_cons.mp hsteps
    exact ih answer (hp answer hanswer) hsteps hrest

/-- What is returned can be described in two steps. -/
theorem and {P' : ε → Prop} {p : Script ε Ans α} (hp : p.Meets A P Q) (hp' : p.Meets A P' Q') :
    p.Meets A P fun a => Q a ∧ Q' a := by
  induction p with
  | done a => exact ⟨hp, hp'⟩
  | throw e => exact hp
  | ask op next ih => exact fun answer hanswer => ih answer (hp answer hanswer) (hp' answer hanswer)

/-- Less may be assumed of the answers. -/
theorem imp {A' : (op : Op) → Ans op → Prop} (h : ∀ op answer, A' op answer → A op answer)
    {p : Script ε Ans α} (hp : p.Meets A P Q) : p.Meets A' P Q := by
  induction p with
  | done a => exact hp
  | throw e => exact hp
  | ask op next ih => exact fun answer hanswer => ih answer (hp answer (h op answer hanswer))

/-- A script none of whose results is returned. -/
theorem never [DecidableEq Op] {p : Script ε Ans α}
    (hp : p.Meets (fun _ _ => True) (fun _ => True) fun _ => False)
    (steps : List (Step Ans)) (a : α) :
    p.replay steps ≠ some (.ok a) :=
  fun h => (hp.replay (fun _ _ => trivial) h).2 a rfl

end Meets

/-- From the steps `pre` on, the steps and the result of a run satisfy `Q`, as long as the
answers satisfy `A`. -/
def Yields (A : (op : Op) → Ans op → Prop) :
    Script ε Ans α → (List (Step Ans) → Except ε α → Prop) → List (Step Ans) → Prop
  | .done a, Q, pre => Q pre (.ok a)
  | .throw e, Q, pre => Q pre (.error e)
  | .ask op next, Q, pre => ∀ answer, A op answer → (next answer).Yields A Q (pre ++ [⟨op, answer⟩])

section Yields

variable {A : (op : Op) → Ans op → Prop} {pre : List (Step Ans)}

/-- A weaker condition on the steps and the result. -/
theorem Yields.mono {Q Q' : List (Step Ans) → Except ε α → Prop}
    (hQ : ∀ steps r, Q steps r → Q' steps r)
    {p : Script ε Ans α} (h : p.Yields A Q pre) : p.Yields A Q' pre := by
  induction p generalizing pre with
  | done a => exact hQ _ _ h
  | throw e => exact hQ _ _ h
  | ask op next ih => exact fun answer hanswer => ih answer (h answer hanswer)

/-- A question comes first. -/
theorem yields_ask {op : Op} {f : Ans op → Script ε Ans α}
    {Q : List (Step Ans) → Except ε α → Prop} :
    (ask op .done >>= f).Yields A Q pre ↔
      ∀ answer, A op answer → (f answer).Yields A Q (pre ++ [⟨op, answer⟩]) := Iff.rfl

/-- A given result yields what holds after the steps so far. -/
theorem yields_ofExcept {x : Except ε α} {Q : List (Step Ans) → Except ε α → Prop} :
    (ofExcept x : Script ε Ans α).Yields A Q pre ↔ Q pre x := by
  cases x <;> rfl

/-- The second script yields what holds after the steps of the first. -/
theorem yields_bind {p : Script ε Ans α} {f : α → Script ε Ans β}
    {Q : List (Step Ans) → Except ε β → Prop} :
    (p >>= f).Yields A Q pre ↔ p.Yields A (fun steps r => match r with
      | .ok a => (f a).Yields A Q steps
      | .error e => Q steps (.error e)) pre := by
  induction p generalizing pre with
  | done a => rfl
  | throw e => rfl
  | ask op next ih => exact forall_congr' fun answer => imp_congr_right fun _ => ih answer

/-- An attempt yields the error as a value. -/
theorem yields_attempt {p : Script ε Ans α} {Q : List (Step Ans) → Except ε' (Except ε α) → Prop} :
    (p.attempt : Script ε' Ans (Except ε α)).Yields A Q pre ↔
      p.Yields A (fun steps r => Q steps (.ok r)) pre := by
  induction p generalizing pre with
  | done a => rfl
  | throw e => rfl
  | ask op next ih => exact forall_congr' fun answer => imp_congr_right fun _ => ih answer

/-- The cleanup decides if it raises. -/
theorem yields_withFinally {p : Script ε Ans α} {cleanup : Script ε Ans Unit}
    {Q : List (Step Ans) → Except ε α → Prop} (h : p.Yields A (fun steps r =>
      cleanup.Yields A (fun steps r' => match r' with
        | .ok _ => Q steps r
        | .error e => Q steps (.error e)) steps) pre) : (p.withFinally cleanup).Yields A Q pre := by
  refine yields_bind.2 (yields_attempt.2 (h.mono fun steps r hr => ?_))
  refine yields_bind.2 (hr.mono fun steps r' hr' => ?_)
  cases r' with
  | ok _ => cases r <;> exact hr'
  | error e => exact hr'

/-- What holds of the runs from `pre` on holds of a run that was recorded. -/
theorem Yields.replay [DecidableEq Op] {Q : List (Step Ans) → Except ε α → Prop}
    {p : Script ε Ans α} {steps : List (Step Ans)} {r : Except ε α} (h : p.Yields A Q pre)
    (hsteps : ∀ step ∈ steps, A step.op step.answer) (hreplay : p.replay steps = some r) :
    Q (pre ++ steps) r := by
  induction p generalizing pre steps with
  | done a =>
    obtain ⟨rfl, rfl⟩ := replay_done.1 hreplay
    rwa [List.append_nil]
  | throw e =>
    obtain ⟨rfl, rfl⟩ := replay_throw.1 hreplay
    rwa [List.append_nil]
  | ask op next ih =>
    obtain ⟨answer, rest, rfl, hrest⟩ := replay_ask.1 hreplay
    obtain ⟨hanswer, hsteps⟩ := List.forall_mem_cons.mp hsteps
    have hnext := ih answer (h answer hanswer) hsteps hrest
    rwa [List.append_assoc, List.singleton_append] at hnext

end Yields

/-- From the steps `pre` on, every operation is issued under the guard `G`, and the
result satisfies `Q`. -/
def Safe (G : List (Step Ans) → Op → Prop) :
    Script ε Ans α → (List (Step Ans) → Except ε α → Prop) → List (Step Ans) → Prop
  | .done a, Q, pre => Q pre (.ok a)
  | .throw e, Q, pre => Q pre (.error e)
  | .ask op next, Q, pre => G pre op ∧ ∀ answer, (next answer).Safe G Q (pre ++ [⟨op, answer⟩])

section Safe

variable {G : List (Step Ans) → Op → Prop} {Q Q' : List (Step Ans) → Except ε α → Prop}
  {pre : List (Step Ans)}

/-- A value is safe if the result may be this one. -/
@[simp] theorem safe_pure {a : α} :
    (pure a : Script ε Ans α).Safe G Q pre ↔ Q pre (.ok a) := Iff.rfl

/-- An error is safe if the result may be this one. -/
@[simp] theorem safe_throw {e : ε} :
    (MonadExcept.throw e : Script ε Ans α).Safe G Q pre ↔ Q pre (.error e) := Iff.rfl

/-- A weaker condition on the steps and the result. -/
theorem Safe.mono {p : Script ε Ans α} (h : p.Safe G Q pre)
    (hQ : ∀ steps r, Q steps r → Q' steps r) : p.Safe G Q' pre := by
  induction p generalizing pre with
  | done a => exact hQ _ _ h
  | throw e => exact hQ _ _ h
  | ask op next ih => exact ⟨h.1, fun answer => ih answer (h.2 answer)⟩

/-- What the second part has to achieve is the postcondition of the first. -/
theorem safe_bind {p : Script ε Ans α} {f : α → Script ε Ans β}
    {Q : List (Step Ans) → Except ε β → Prop} :
    (p >>= f).Safe G Q pre ↔ p.Safe G (fun steps r => match r with
      | .ok a => (f a).Safe G Q steps
      | .error e => Q steps (.error e)) pre := by
  induction p generalizing pre with
  | done a => rfl
  | throw e => rfl
  | ask op next ih => exact and_congr_right fun _ => forall_congr' fun answer => ih answer

/-- What the handler has to achieve is the postcondition of raising. -/
theorem safe_tryCatch {p : Script ε Ans α} {handler : ε → Script ε Ans α} :
    (MonadExcept.tryCatch p handler).Safe G Q pre ↔ p.Safe G (fun steps r => match r with
      | .ok a => Q steps (.ok a)
      | .error e => (handler e).Safe G Q steps) pre := by
  induction p generalizing pre with
  | done a => rfl
  | throw e => rfl
  | ask op next ih => exact and_congr_right fun _ => forall_congr' fun answer => ih answer

/-- A postcondition for scripts that return, and none for those that raise. -/
def onOk (Post : List (Step Ans) → α → Prop) (steps : List (Step Ans)) (r : Except ε α) : Prop :=
  ∀ a, r = .ok a → Post steps a

/-- A condition on values holds of a value. -/
@[simp] theorem onOk_ok {Post : List (Step Ans) → α → Prop} {steps : List (Step Ans)} {a : α} :
    onOk Post steps (.ok a : Except ε α) ↔ Post steps a :=
  ⟨fun h => h a rfl, fun h _ ha => Except.ok.inj ha ▸ h⟩

/-- A condition on values says nothing of an error. -/
@[simp] theorem onOk_error {Post : List (Step Ans) → α → Prop} {steps : List (Step Ans)} {e : ε} :
    onOk Post steps (.error e : Except ε α) := fun _ ha => nomatch ha

/-- The second script has to be safe only after a value of the first. -/
theorem safe_bind_onOk {p : Script ε Ans α} {f : α → Script ε Ans β}
    {Post : List (Step Ans) → β → Prop} :
    (p >>= f).Safe G (onOk Post) pre ↔
      p.Safe G (onOk fun steps a => (f a).Safe G (onOk Post) steps) pre := by
  rw [safe_bind]
  constructor <;> intro h <;> refine h.mono fun steps r hr => ?_ <;> cases r <;> simp_all

/-- A handler that only raises returns what the script returns. -/
theorem safe_tryCatch_onOk {p : Script ε Ans α} {handler : ε → Script ε Ans α}
    {Post : List (Step Ans) → α → Prop} (h : p.Safe G (onOk Post) pre)
    (hraises : ∀ e, ∃ e', handler e = MonadExcept.throw e') :
    (MonadExcept.tryCatch p handler).Safe G (onOk Post) pre := by
  refine safe_tryCatch.2 (h.mono fun steps r hr => ?_)
  cases r with
  | ok a => exact hr
  | error e =>
    obtain ⟨e', he⟩ := hraises e
    simp [he]

/-- **Safety of runs.** Every operation of a run is issued under the guard, and its
result satisfies the postcondition. -/
theorem Safe.replay [DecidableEq Op] {p : Script ε Ans α} {steps : List (Step Ans)}
    {r : Except ε α} (h : p.Safe G Q pre) (hreplay : p.replay steps = some r) :
    Q (pre ++ steps) r ∧ ∀ before_ step after_, steps = before_ ++ step :: after_ →
      G (pre ++ before_) step.op := by
  induction p generalizing pre steps with
  | done a | throw e =>
    cases steps with
    | nil =>
      obtain rfl := Option.some.inj hreplay
      exact ⟨by simpa [Safe] using h, by simp⟩
    | cons step steps => exact nomatch hreplay
  | ask op next ih =>
    cases steps with
    | nil => exact nomatch hreplay
    | cons step steps =>
      obtain ⟨rfl, hrest⟩ : ∃ hop : step.op = op,
          (next (hop ▸ step.answer)).replay steps = some r := by
        simpa only [Script.replay, Option.dite_none_right_eq_some] using hreplay
      obtain ⟨hresult, hsteps⟩ := ih _ (h.2 step.answer) hrest
      refine ⟨by simpa using hresult, fun before_ step' after_ hsplit => ?_⟩
      rcases before_ with _ | ⟨first, before_⟩
      · obtain ⟨rfl, -⟩ := List.cons.inj hsplit
        simpa using h.1
      · obtain ⟨rfl, htail⟩ := List.cons.inj hsplit
        simpa using hsteps before_ step' after_ htail

/-- **Safety of interrupted runs.** Every operation of the beginning of a run is issued
under the guard. -/
theorem Safe.begins [DecidableEq Op] {p : Script ε Ans α} {steps : List (Step Ans)}
    (h : p.Safe G Q []) (hbegins : p.Begins steps) :
    ∀ before_ step after_, steps = before_ ++ step :: after_ → G before_ step.op := by
  obtain ⟨rest, r, hreplay⟩ := hbegins
  rintro before_ step after_ rfl
  exact (h.replay hreplay).2 before_ step (after_ ++ rest) (by simp)

/-- **Safety in every world.** -/
theorem Safe.exec [DecidableEq Op] {p : Script ε Ans α} (h : p.Safe G Q [])
    (world : σ → (op : Op) → Ans op × σ) (s : σ) :
    Q (p.exec world s).1 (p.exec world s).2.1 ∧ ∀ before_ step after_,
      (p.exec world s).1 = before_ ++ step :: after_ → G before_ step.op :=
  h.replay (replay_exec world p s)

end Safe

end Script

end CoffeeOrder.Kit
