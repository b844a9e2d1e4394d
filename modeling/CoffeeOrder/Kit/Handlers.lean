import CoffeeOrder.Kit.Script

/-!
# Operations that are scripts themselves

A script may ask for a component that is a script of its own. `handle` runs the component where
its operation was asked for. Each run of the whole is a run of the outer script, in which the
steps of the component have taken the place of its operation.
-/

namespace CoffeeOrder.Kit

namespace Script

variable {ε Op : Type} {Ans : Op → Type} {α β : Type}

/-- The components: scripts that answer some of the operations. They do not raise. -/
abbrev Handler (Ans : Op → Type) := (op : Op) → Option (Script Empty Ans (Ans op))

/-- Run the components in the place of their operations. -/
def handle (handler : Handler Ans) : Script ε Ans α → Script ε Ans α
  | .done a => .done a
  | .throw e => .throw e
  | .ask op next => match handler op with
    | none => .ask op fun answer => (next answer).handle handler
    | some component =>
      (component.tryCatch Empty.elim).bind fun answer => (next answer).handle handler

variable {handler : Handler Ans}

/-- An operation that the handler does not know is left to the environment. -/
theorem handle_ask_none {op : Op} {next : Ans op → Script ε Ans α} (h : handler op = none) :
    (ask op next).handle handler = .ask op fun answer => (next answer).handle handler := by
  rw [handle, h]

/-- An operation that the handler knows is run in its place. -/
theorem handle_ask_some {op : Op} {next : Ans op → Script ε Ans α}
    {component : Script Empty Ans (Ans op)} (h : handler op = some component) :
    (ask op next).handle handler =
      component.tryCatch Empty.elim >>= fun answer => (next answer).handle handler := by
  rw [handle, h]
  rfl

variable [DecidableEq Op]

/-- Every pass of a loop has run. -/
theorem RanIn.mapM {γ : Type} {f : γ → Script ε Ans α} {xs : List γ} {found : List α}
    {steps : List (Step Ans)} (h : (xs.mapM f).RanIn steps found) {x : γ} (hx : x ∈ xs) :
    ∃ a ∈ found, (f x).RanIn steps a := by
  suffices hloop : ∀ (xs : List γ) (done : List α), (List.mapM.loop f xs done).RanIn steps found →
      (∀ a ∈ done, a ∈ found) ∧ ∀ x ∈ xs, ∃ a ∈ found, (f x).RanIn steps a from
    (hloop xs [] h).2 x hx
  intro xs
  induction xs with
  | nil =>
    intro done h
    obtain rfl := RanIn.of_pure h
    simp
  | cons x xs ih =>
    intro done h
    obtain ⟨a, ha, hrest⟩ := RanIn.bind h
    obtain ⟨hdone, hxs⟩ := ih (a :: done) hrest
    obtain ⟨hfound, hdone⟩ := List.forall_mem_cons.mp hdone
    exact ⟨hdone, List.forall_mem_cons.mpr ⟨⟨a, hfound, ha⟩, hxs⟩⟩

/-- The steps of the whole, given those of the outer script. -/
inductive Expands (handler : Handler Ans) : List (Step Ans) → List (Step Ans) → Prop
  | nil : Expands handler [] []
  | asked {step : Step Ans} {outer whole : List (Step Ans)} (hop : handler step.op = none)
      (hrest : Expands handler outer whole) : Expands handler (step :: outer) (step :: whole)
  | handled {op : Op} {answer : Ans op} {component : Script Empty Ans (Ans op)}
      {segment outer whole : List (Step Ans)} (hop : handler op = some component)
      (hrun : component.replay segment = some (.ok answer)) (hrest : Expands handler outer whole) :
      Expands handler (⟨op, answer⟩ :: outer) (segment ++ whole)

/-- A component returns. -/
theorem replay_component {component : Script Empty Ans β} {steps : List (Step Ans)}
    {r : Except ε β} (h : (component.tryCatch Empty.elim).replay steps = some r) :
    ∃ b, r = .ok b ∧ component.replay steps = some (.ok b) := by
  obtain ⟨b, rfl, hrun⟩ | ⟨e, _⟩ := replay_tryCatch.mp h
  · exact ⟨b, rfl, hrun⟩
  · exact e.elim

/-- **Runs of the whole** are runs of the outer script, expanded. -/
theorem replay_handle {p : Script ε Ans α} {whole : List (Step Ans)} {r : Except ε α}
    (h : (p.handle handler).replay whole = some r) :
    ∃ outer, p.replay outer = some r ∧ Expands handler outer whole := by
  induction p generalizing whole with
  | done a =>
    obtain ⟨rfl, rfl⟩ := replay_done.mp h
    exact ⟨[], rfl, .nil⟩
  | throw e =>
    obtain ⟨rfl, rfl⟩ := replay_throw.mp h
    exact ⟨[], rfl, .nil⟩
  | ask op next ih =>
    cases hop : handler op with
    | none =>
      rw [handle_ask_none hop] at h
      obtain ⟨answer, rest, rfl, hrest⟩ := replay_ask.mp h
      obtain ⟨outer, houter, hexpands⟩ := ih answer hrest
      exact ⟨⟨op, answer⟩ :: outer, replay_ask.mpr ⟨answer, outer, rfl, houter⟩,
        .asked hop hexpands⟩
    | some component =>
      rw [handle_ask_some hop] at h
      obtain ⟨e, _, herror⟩ | ⟨answer, segment, rest, rfl, hsegment, hrest⟩ := replay_bind.mp h
      · obtain ⟨_, hok, -⟩ := replay_component herror
        cases hok
      · obtain ⟨_, hok, hrun⟩ := replay_component hsegment
        obtain rfl := Except.ok.inj hok
        obtain ⟨outer, houter, hexpands⟩ := ih answer hrest
        exact ⟨⟨op, answer⟩ :: outer, replay_ask.mpr ⟨answer, outer, rfl, houter⟩,
          .handled hop hrun hexpands⟩

namespace Expands

variable {outer whole : List (Step Ans)}

/-- Where the outer steps are split, the whole is. -/
theorem of_append {first second : List (Step Ans)} (h : Expands handler (first ++ second) whole) :
    ∃ whole₁ whole₂, whole = whole₁ ++ whole₂ ∧ Expands handler first whole₁ ∧
      Expands handler second whole₂ := by
  induction first generalizing whole with
  | nil => exact ⟨[], whole, rfl, .nil, h⟩
  | cons step first ih =>
    cases h with
    | asked hop hrest =>
      obtain ⟨whole₁, whole₂, rfl, hfirst, hsecond⟩ := ih hrest
      exact ⟨step :: whole₁, whole₂, rfl, .asked hop hfirst, hsecond⟩
    | @handled op answer component segment _ rest hop hrun hrest =>
      obtain ⟨whole₁, whole₂, rfl, hfirst, hsecond⟩ := ih hrest
      exact ⟨segment ++ whole₁, whole₂, (List.append_assoc ..).symm,
        .handled hop hrun hfirst, hsecond⟩

/-- The steps of a component, between what came before its operation and what came after. -/
theorem around {op : Op} {answer : Ans op} {component : Script Empty Ans (Ans op)}
    {before_ after_ : List (Step Ans)}
    (h : Expands handler (before_ ++ ⟨op, answer⟩ :: after_) whole)
    (hop : handler op = some component) :
    ∃ whole₁ segment whole₂, whole = whole₁ ++ (segment ++ whole₂) ∧
      Expands handler before_ whole₁ ∧ component.replay segment = some (.ok answer) ∧
      Expands handler after_ whole₂ := by
  obtain ⟨whole₁, rest, rfl, hbefore, hrest⟩ := h.of_append
  cases hrest with
  | asked hnone _ => cases hnone.symm.trans hop
  | @handled _ _ _ segment _ whole₂ hsome hrun hafter =>
    obtain rfl := Option.some.inj (hsome.symm.trans hop)
    exact ⟨whole₁, segment, whole₂, rfl, hbefore, hrun, hafter⟩

/-- What every answer of a component satisfies holds of all outer steps, if the other operations
satisfy it. -/
theorem forall_answers {A : (op : Op) → Ans op → Prop} (h : Expands handler outer whole)
    (hasked : ∀ op answer, handler op = none → A op answer)
    (hhandled : ∀ op component answer segment, handler op = some component →
      component.replay segment = some (.ok answer) → A op answer) :
    ∀ step ∈ outer, A step.op step.answer := by
  induction h with
  | nil => simp
  | asked hop _ ih => exact List.forall_mem_cons.mpr ⟨hasked _ _ hop, ih⟩
  | handled hop hrun _ ih => exact List.forall_mem_cons.mpr ⟨hhandled _ _ _ _ hop hrun, ih⟩

end Expands

end Script

end CoffeeOrder.Kit
