import Mathlib.Data.List.Basic
import Mathlib.Data.List.Induction

/-!
# Histories and what they have left behind

A history is a list of labels, each of which relates a state to the next one. A slot of the state
is filled by some steps and emptied or left alone by the others: what it holds at the end was made
by a step of the history, from the state that had been reached before that step.
-/

namespace CoffeeOrder.Kit

variable {σ ℓ β : Type*}

/-- The labels lead from one state to another. -/
def Follows (step : ℓ → σ → σ → Prop) : List ℓ → σ → σ → Prop
  | [], s, s' => s' = s
  | l :: ls, s, s' => ∃ between, step l s between ∧ Follows step ls between s'

variable {step : ℓ → σ → σ → Prop} {s s' : σ}

/-- A history of two parts goes through a state between them. -/
theorem follows_append {ls ms : List ℓ} :
    Follows step (ls ++ ms) s s' ↔
      ∃ between, Follows step ls s between ∧ Follows step ms between s' := by
  induction ls generalizing s with
  | nil => exact ⟨fun h => ⟨s, rfl, h⟩, fun ⟨_, hbetween, h⟩ => hbetween ▸ h⟩
  | cons l ls ih =>
    constructor
    · rintro ⟨first, hfirst, h⟩
      obtain ⟨between, hls, hms⟩ := ih.mp h
      exact ⟨between, ⟨first, hfirst, hls⟩, hms⟩
    · rintro ⟨between, ⟨first, hfirst, hls⟩, hms⟩
      exact ⟨first, hfirst, ih.mpr ⟨between, hls, hms⟩⟩

/-- The last step of a history, separated from the steps before it. -/
theorem follows_snoc {ls : List ℓ} {l : ℓ} :
    Follows step (ls ++ [l]) s s' ↔ ∃ between, Follows step ls s between ∧ step l between s' := by
  rw [follows_append]
  refine exists_congr fun between => and_congr_right fun _ => ?_
  exact ⟨fun ⟨_, hstep, hlast⟩ => hlast ▸ hstep, fun hstep => ⟨s', hstep, rfl⟩⟩

/-- A history of some steps is one of any weaker steps. -/
theorem Follows.imp {step' : ℓ → σ → σ → Prop} (hstep : ∀ l s s', step l s s' → step' l s s')
    {ls : List ℓ} (h : Follows step ls s s') : Follows step' ls s s' := by
  induction ls generalizing s with
  | nil => exact h
  | cons l ls ih =>
    obtain ⟨between, hfirst, hrest⟩ := h
    exact ⟨between, hstep _ _ _ hfirst, ih hrest⟩

/-- Assumptions on the labels go into the relation. -/
theorem Follows.and {ok : ℓ → Prop} {ls : List ℓ} (h : Follows step ls s s')
    (hls : ∀ l ∈ ls, ok l) : Follows (fun l s s' => ok l ∧ step l s s') ls s s' := by
  induction ls generalizing s with
  | nil => exact h
  | cons l ls ih =>
    obtain ⟨between, hfirst, hrest⟩ := h
    obtain ⟨hl, hls⟩ := List.forall_mem_cons.mp hls
    exact ⟨between, ⟨hl, hfirst⟩, ih hrest hls⟩

/-- **Run rule.** What holds at the start and survives every step holds at the end of every
history. It may speak about the labels so far. -/
theorem Follows.induction {P : List ℓ → σ → Prop} {start : σ} (hstart : P [] start)
    (hstep : ∀ ls l s s', Follows step ls start s → P ls s → step l s s' → P (ls ++ [l]) s')
    {ls : List ℓ} (h : Follows step ls start s) : P ls s := by
  induction ls using List.reverseRecOn generalizing s with
  | nil =>
    obtain rfl := h
    exact hstart
  | append_singleton ls l ih =>
    obtain ⟨between, hbefore, hlast⟩ := (follows_snoc ..).1 h
    exact hstep ls l between s hbefore (ih hbefore) hlast

/-- The step that has made what the slot holds, and the history before it. -/
structure MadeBy (step : ℓ → σ → σ → Prop) (makes : ℓ → σ → β → Prop) (start : σ) (history : List ℓ)
    (b : β) where
  before_ : List ℓ
  label : ℓ
  after_ : List ℓ
  state : σ
  history_eq : history = before_ ++ label :: after_
  reached : Follows step before_ start state
  made : makes label state b

/-- What was made earlier was made in a longer history, too. -/
def MadeBy.snoc {makes : ℓ → σ → β → Prop} {start : σ} {history : List ℓ} {b : β}
    (h : MadeBy step makes start history b) (l : ℓ) :
    MadeBy step makes start (history ++ [l]) b where
  __ := h
  after_ := h.after_ ++ [l]
  history_eq := (congrArg (· ++ [l]) h.history_eq).trans (by simp)

/-- **Provenance rule.** If every step leaves the slot as it is, empties it or fills it with what it
makes, then what an empty slot holds at the end was made by a step of the history. -/
theorem Follows.provenance (slot : σ → Option β) {makes : ℓ → σ → β → Prop} {start : σ}
    (hstart : slot start = none)
    (hstep : ∀ ls l s s', Follows step ls start s → step l s s' →
      (slot s' = slot s ∨ slot s' = none) ∨ ∃ b, slot s' = some b ∧ makes l s b)
    {history : List ℓ} (h : Follows step history start s) {b : β} (hb : slot s = some b) :
    Nonempty (MadeBy step makes start history b) := by
  suffices hall : ∀ b, slot s = some b → Nonempty (MadeBy step makes start history b) from hall b hb
  refine Follows.induction (P := fun history s => ∀ b, slot s = some b →
    Nonempty (MadeBy step makes start history b)) (fun b hb => ?_) ?_ h
  · cases hstart.symm.trans hb
  · intro ls l s s' hfollows ih hlast b hb
    obtain (hsame | hnone) | ⟨b', hb', hmakes⟩ := hstep ls l s s' hfollows hlast
    · obtain ⟨hmade⟩ := ih b (hsame.symm.trans hb)
      exact ⟨hmade.snoc l⟩
    · cases hnone.symm.trans hb
    · obtain rfl := Option.some.inj (hb'.symm.trans hb)
      exact ⟨⟨ls, l, [], s, rfl, hfollows, hmakes⟩⟩

end CoffeeOrder.Kit
