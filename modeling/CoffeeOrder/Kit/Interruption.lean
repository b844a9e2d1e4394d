import CoffeeOrder.Kit.Effects

/-!
# Scripts that may be cut short

A run may end after any of its steps, because the process is killed. What a run that was cut
short leaves behind is the invariant that the script keeps up to its end.
-/

namespace CoffeeOrder.Kit

variable {ε Op : Type} {Ans : Op → Type} {α σ : Type}

namespace Script

section CutShort

variable {E : (op : Op) → Ans op → σ → σ → Prop} {I : σ → Prop} {s s' : σ}

/-- What holds of all results holds of one that has been returned among the steps. -/
theorem Meets.ranIn [DecidableEq Op] {A : (op : Op) → Ans op → Prop} {P : ε → Prop} {R : α → Prop}
    {p : Script ε Ans α} {steps : List (Step Ans)} {a : α} (h : p.Meets A P R)
    (hsteps : ∀ step ∈ steps, A step.op step.answer) (hran : p.RanIn steps a) : R a := by
  obtain ⟨before_, during, after_, rfl, hreplay⟩ := hran
  refine (h.replay (fun step hstep => hsteps step ?_) hreplay).2 a rfl
  exact List.mem_append_right _ (List.mem_append_left _ hstep)

/-- The steps are the first ones of a run that goes on after them. -/
def CutShort [DecidableEq Op] (p : Script ε Ans α) (steps : List (Step Ans)) : Prop :=
  ∃ step rest r, p.replay (steps ++ step :: rest) = some r

/-- **Runs that were cut short** leave the invariant behind. -/
theorem Keeps.cutShort [DecidableEq Op] {Q : σ → Except ε α → Prop} {p : Script ε Ans α}
    {steps : List (Step Ans)} (h : p.Keeps E I Q s) (hleads : Leads E steps s s')
    (hcut : p.CutShort steps) : I s' := by
  obtain ⟨step, rest, r, hreplay⟩ := hcut
  induction p generalizing s steps with
  | done a =>
    exact absurd (replay_done.mp hreplay).1 (List.append_ne_nil_of_right_ne_nil _ (by simp))
  | throw e =>
    exact absurd (replay_throw.mp hreplay).1 (List.append_ne_nil_of_right_ne_nil _ (by simp))
  | ask op next ih =>
    cases steps with
    | nil =>
      obtain rfl := hleads
      exact h.1
    | cons first steps =>
      obtain ⟨answer, _, hsteps, hrest⟩ := replay_ask.mp hreplay
      obtain ⟨rfl, rfl⟩ := List.cons.inj hsteps
      obtain ⟨between, hE, hleads⟩ := hleads
      exact ih answer (h.2 answer between hE) hleads hrest

end CutShort

end Script

end CoffeeOrder.Kit
