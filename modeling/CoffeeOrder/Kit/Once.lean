import CoffeeOrder.Kit.Script

/-!
# Scripts that ask something once

A script may ask some operation at most once in a run, so that its answer is the only one. Such a
script is put together from parts that do not ask it and one part that does.
-/

namespace CoffeeOrder.Kit

variable {ε ε' Op : Type} {Ans : Op → Type} {α β : Type}

namespace Script

/-- Every operation satisfies `G`, except for at most one in a run, which satisfies `H`. -/
def Once (G H : Op → Prop) : Script ε Ans α → Prop
  | .done _ => True
  | .throw _ => True
  | .ask op next =>
    G op ∧ (∀ answer, (next answer).Once G H) ∨
      H op ∧ ∀ answer, (next answer).Within G fun _ => True

variable {G H : Op → Prop} {P : ε → Prop} {p : Script ε Ans α}

/-- An attempt asks what the script asks, and raises nothing. -/
theorem Within.attempt {Q : ε' → Prop} (h : p.Within G P) :
    (p.attempt : Script ε' Ans (Except ε α)).Within G Q := by
  induction p with
  | done a => trivial
  | throw e => trivial
  | ask op next ih => exact ⟨h.1, fun answer => ih answer (h.2 answer)⟩

/-- The exception need not occur. -/
theorem Within.once (h : p.Within G P) : p.Once G H := by
  induction p with
  | done a => trivial
  | throw e => trivial
  | ask op next ih => exact .inl ⟨h.1, fun answer => ih answer (h.2 answer)⟩

/-- The exception may occur after a part without it. -/
theorem Within.bind_once {f : α → Script ε Ans β} (hp : p.Within G P)
    (hf : ∀ a, (f a).Once G H) : (p >>= f).Once G H := by
  induction p with
  | done a => exact hf a
  | throw e => trivial
  | ask op next ih => exact .inl ⟨hp.1, fun answer => ih answer (hp.2 answer)⟩

/-- After a part that may contain the exception, it may not occur again. -/
theorem Once.bind_within {f : α → Script ε Ans β} (hp : p.Once G H)
    (hf : ∀ a, (f a).Within G fun _ => True) : (p >>= f).Once G H := by
  induction p with
  | done a => exact (hf a).once
  | throw e => trivial
  | ask op next ih =>
    obtain ⟨hop, hnext⟩ | ⟨hop, hnext⟩ := hp
    · exact .inl ⟨hop, fun answer => ih answer (hnext answer)⟩
    · exact .inr ⟨hop, fun answer => (hnext answer).bind hf⟩

/-- An attempt asks what the script asks. -/
theorem Once.attempt (hp : p.Once G H) : (p.attempt : Script ε' Ans (Except ε α)).Once G H := by
  induction p with
  | done a => trivial
  | throw e => trivial
  | ask op next ih =>
    obtain ⟨hop, hnext⟩ | ⟨hop, hnext⟩ := hp
    · exact .inl ⟨hop, fun answer => ih answer (hnext answer)⟩
    · exact .inr ⟨hop, fun answer => (hnext answer).attempt⟩

/-- Weaker conditions on the operations. -/
theorem Once.imp {G' : Op → Prop} (h : ∀ op, G op → G' op) (hp : p.Once G H) : p.Once G' H := by
  induction p with
  | done a => trivial
  | throw e => trivial
  | ask op next ih =>
    obtain ⟨hop, hnext⟩ | ⟨hop, hnext⟩ := hp
    · exact .inl ⟨h op hop, fun answer => ih answer (hnext answer)⟩
    · exact .inr ⟨hop, fun answer => (hnext answer).imp h⟩

/-- **There is one answer** to what is asked at most once. -/
theorem Once.replay_unique [DecidableEq Op] {steps : List (Step Ans)} {r : Except ε α}
    {step step' : Step Ans} (hp : p.Once G H) (hreplay : p.replay steps = some r)
    (hstep : step ∈ steps) (hop : ¬G step.op) (hstep' : step' ∈ steps) (hop' : ¬G step'.op) :
    step = step' := by
  induction p generalizing steps with
  | done a =>
    obtain ⟨rfl, -⟩ := replay_done.mp hreplay
    cases hstep
  | throw e =>
    obtain ⟨rfl, -⟩ := replay_throw.mp hreplay
    cases hstep
  | ask op next ih =>
    obtain ⟨answer, rest, rfl, hrest⟩ := replay_ask.mp hreplay
    obtain ⟨hG, hnext⟩ | ⟨-, hnext⟩ := hp
    · -- the exception is not the first step
      have hbehind {step : Step Ans} (hstep : step ∈ ⟨op, answer⟩ :: rest) (hop : ¬G step.op) :
          step ∈ rest :=
        (List.mem_cons.mp hstep).resolve_left fun heq => hop (heq ▸ hG)
      exact ih answer (hnext answer) hrest (hbehind hstep hop) (hbehind hstep' hop')
    · -- the exception is the first step, and no other one is
      have hfirst {step : Step Ans} (hstep : step ∈ ⟨op, answer⟩ :: rest) (hop : ¬G step.op) :
          step = ⟨op, answer⟩ :=
        (List.mem_cons.mp hstep).resolve_right fun hmem =>
          hop (((hnext answer).replay hrest).1 step hmem)
      exact (hfirst hstep hop).trans (hfirst hstep' hop').symm

end Script

end CoffeeOrder.Kit
