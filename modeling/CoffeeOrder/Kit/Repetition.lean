import CoffeeOrder.Kit.Effects

/-!
# Scripts that are run again

A recorded run fixes what a script does wherever its questions are answered in the same way
again. `Asks` says which questions a script asks as long as the answers are of a kind.
-/

namespace CoffeeOrder.Kit

variable {ε ε' Op : Type} {Ans : Op → Type} {α β σ : Type}

namespace Script

/-- As long as the answers satisfy `A`, every operation satisfies `G`. -/
def Asks (A : (op : Op) → Ans op → Prop) (G : Op → Prop) : Script ε Ans α → Prop
  | .done _ => True
  | .throw _ => True
  | .ask op next => G op ∧ ∀ answer, A op answer → (next answer).Asks A G

section Asks

variable {A : (op : Op) → Ans op → Prop} {G : Op → Prop}

/-- What holds of every operation holds of those that are asked for. -/
theorem Within.asks {P : ε → Prop} {p : Script ε Ans α} (h : p.Within G P) : p.Asks A G := by
  induction p with
  | done a => trivial
  | throw e => trivial
  | ask op next ih => exact ⟨h.1, fun answer _ => ih answer (h.2 answer)⟩

/-- What follows a script may rely on what the answers make it return. -/
theorem Asks.bind {P : ε → Prop} {Q : α → Prop} {p : Script ε Ans α} {f : α → Script ε Ans β}
    (hp : p.Asks A G) (hmeets : p.Meets A P Q) (hf : ∀ a, Q a → (f a).Asks A G) :
    (p >>= f).Asks A G := by
  induction p with
  | done a => exact hf a hmeets
  | throw e => trivial
  | ask op next ih =>
    exact ⟨hp.1, fun answer hanswer => ih answer (hp.2 answer hanswer) (hmeets answer hanswer)⟩

/-- Translated errors ask nothing. -/
theorem Asks.mapError {f : ε → ε'} {p : Script ε Ans α} (hp : p.Asks A G) :
    (p.mapError f).Asks A G := by
  induction p with
  | done a => trivial
  | throw e => trivial
  | ask op next ih => exact ⟨hp.1, fun answer hanswer => ih answer (hp.2 answer hanswer)⟩

/-- The operations of a recorded run with such answers. -/
theorem Asks.replay [DecidableEq Op] {p : Script ε Ans α} {steps : List (Step Ans)}
    {r : Except ε α} (h : p.Asks A G) (hsteps : ∀ step ∈ steps, A step.op step.answer)
    (hreplay : p.replay steps = some r) : ∀ step ∈ steps, G step.op := by
  induction p generalizing steps with
  | done a =>
    obtain ⟨rfl, -⟩ := replay_done.mp hreplay
    simp
  | throw e =>
    obtain ⟨rfl, -⟩ := replay_throw.mp hreplay
    simp
  | ask op next ih =>
    obtain ⟨answer, rest, rfl, hrest⟩ := replay_ask.mp hreplay
    obtain ⟨hanswer, hsteps⟩ := List.forall_mem_cons.mp hsteps
    exact List.forall_mem_cons.mpr ⟨h.1, ih answer (h.2 answer hanswer) hsteps hrest⟩

end Asks

/-- **Repetition.** Where each question of a recorded run gets its answer again, the script has its
result again. -/
theorem ensures_again [DecidableEq Op] {E : (op : Op) → Ans op → σ → σ → Prop} {I : σ → Prop}
    {p : Script ε Ans α} {steps : List (Step Ans)} {r : Except ε α} {s : σ}
    (hreplay : p.replay steps = some r)
    (hagain : ∀ step ∈ steps, ∀ answer s s', E step.op answer s s' → I s →
      answer = step.answer ∧ I s') (hs : I s) :
    p.Ensures E (fun s' r' => I s' ∧ r' = r) s := by
  induction p generalizing s steps with
  | done a =>
    obtain ⟨-, rfl⟩ := replay_done.mp hreplay
    exact ⟨hs, rfl⟩
  | throw e =>
    obtain ⟨-, rfl⟩ := replay_throw.mp hreplay
    exact ⟨hs, rfl⟩
  | ask op next ih =>
    obtain ⟨recorded, rest, rfl, hrest⟩ := replay_ask.mp hreplay
    obtain ⟨hfirst, hrests⟩ := List.forall_mem_cons.mp hagain
    refine ensures_ask fun answer s' hE => ?_
    obtain ⟨rfl, hs'⟩ := hfirst answer s s' hE hs
    exact ih _ hrest hrests hs'

/-- The same for the result alone, if the answers leave no choice. -/
theorem meets_again [DecidableEq Op] {A : (op : Op) → Ans op → Prop} {p : Script ε Ans α}
    {steps : List (Step Ans)} {a : α} (hreplay : p.replay steps = some (.ok a))
    (hagain : ∀ step ∈ steps, ∀ answer, A step.op answer → answer = step.answer) :
    p.Meets A (fun _ => True) (· = a) := by
  induction p generalizing steps with
  | done b =>
    obtain ⟨-, hb⟩ := replay_done.mp hreplay
    exact (Except.ok.inj hb).symm
  | throw e => trivial
  | ask op next ih =>
    obtain ⟨recorded, rest, rfl, hrest⟩ := replay_ask.mp hreplay
    obtain ⟨hfirst, hrests⟩ := List.forall_mem_cons.mp hagain
    intro answer hanswer
    obtain rfl := hfirst answer hanswer
    exact ih _ hrest hrests

end Script

end CoffeeOrder.Kit
