import CoffeeOrder.Kit.Script

/-!
# Scripts that change a state

Operations change a state that the script does not see. A relation says what each
operation may do to the state under each answer. `Keeps` is the weakest precondition of a
script under it, with an invariant of all states before the end; `Ensures` asks for no
invariant; and `Leads` says what a recorded run has done to the state.
-/

namespace CoffeeOrder.Kit

variable {ε ε' Op : Type} {Ans : Op → Type} {α β σ : Type}

namespace Script

/-- The recorded steps lead from one state to another. -/
def Leads (E : (op : Op) → Ans op → σ → σ → Prop) : List (Step Ans) → σ → σ → Prop
  | [], s, s' => s' = s
  | step :: steps, s, s' => ∃ between, E step.op step.answer s between ∧ Leads E steps between s'

/-- From the state `s` on, `I` holds in every state of a run before its end, and the last state
and the result satisfy `Q`. -/
def Keeps (E : (op : Op) → Ans op → σ → σ → Prop) (I : σ → Prop) :
    Script ε Ans α → (σ → Except ε α → Prop) → σ → Prop
  | .done a, Q, s => Q s (.ok a)
  | .throw e, Q, s => Q s (.error e)
  | .ask op next, Q, s => I s ∧ ∀ answer s', E op answer s s' → (next answer).Keeps E I Q s'

/-- From the state `s` on, the last state and the result of a run satisfy `Q`. -/
abbrev Ensures (E : (op : Op) → Ans op → σ → σ → Prop) (p : Script ε Ans α)
    (Q : σ → Except ε α → Prop) (s : σ) : Prop := p.Keeps E (fun _ => True) Q s

section Keeps

variable {E : (op : Op) → Ans op → σ → σ → Prop} {I : σ → Prop} {s s' : σ}

/-- Recorded steps lead through the state between them. -/
theorem leads_append {steps steps' : List (Step Ans)} :
    Leads E (steps ++ steps') s s' ↔
      ∃ between, Leads E steps s between ∧ Leads E steps' between s' := by
  induction steps generalizing s with
  | nil => exact ⟨fun h => ⟨s, rfl, h⟩, fun ⟨_, hbetween, h⟩ => hbetween ▸ h⟩
  | cons step steps ih =>
    constructor
    · rintro ⟨first, hfirst, h⟩
      obtain ⟨between, hsteps, hsteps'⟩ := ih.mp h
      exact ⟨between, ⟨first, hfirst, hsteps⟩, hsteps'⟩
    · rintro ⟨between, ⟨first, hfirst, hsteps⟩, hsteps'⟩
      exact ⟨first, hfirst, ih.mpr ⟨between, hsteps, hsteps'⟩⟩

/-- A stronger postcondition implies a weaker one. -/
theorem Keeps.mono {Q Q' : σ → Except ε α → Prop} {p : Script ε Ans α} (h : p.Keeps E I Q s)
    (hQ : ∀ s r, Q s r → Q' s r) : p.Keeps E I Q' s := by
  induction p generalizing s with
  | done a => exact hQ _ _ h
  | throw e => exact hQ _ _ h
  | ask op next ih => exact ⟨h.1, fun answer s' hE => ih answer (h.2 answer s' hE)⟩

/-- Less may be asked of the states before the end. -/
theorem Keeps.imp {I' : σ → Prop} {Q : σ → Except ε α → Prop} {p : Script ε Ans α}
    (h : p.Keeps E I Q s) (hI : ∀ s, I s → I' s) : p.Keeps E I' Q s := by
  induction p generalizing s with
  | done a => exact h
  | throw e => exact h
  | ask op next ih => exact ⟨hI s h.1, fun answer s' hE => ih answer (h.2 answer s' hE)⟩

/-- Fewer changes of the state need less. -/
theorem Keeps.of_changes {E' : (op : Op) → Ans op → σ → σ → Prop}
    (hE : ∀ op answer s s', E' op answer s s' → E op answer s s') {Q : σ → Except ε α → Prop}
    {p : Script ε Ans α} (h : p.Keeps E I Q s) : p.Keeps E' I Q s := by
  induction p generalizing s with
  | done a => exact h
  | throw e => exact h
  | ask op next ih => exact ⟨h.1, fun answer s' hE' => ih answer (h.2 answer s' (hE _ _ _ _ hE'))⟩

/-- The two obligations can be met one after the other. -/
theorem Keeps.and_ensures {Q Q' : σ → Except ε α → Prop} {p : Script ε Ans α}
    (h : p.Keeps E I Q s) (h' : p.Ensures E Q' s) :
    p.Keeps E I (fun s r => Q s r ∧ Q' s r) s := by
  induction p generalizing s with
  | done a => exact ⟨h, h'⟩
  | throw e => exact ⟨h, h'⟩
  | ask op next ih =>
    exact ⟨h.1, fun answer s' hE => ih answer (h.2 answer s' hE) (h'.2 answer s' hE)⟩

/-- What is asked first may change the state in every way that the relation allows. -/
theorem ensures_ask {op : Op} {next : Ans op → Script ε Ans α} {Q : σ → Except ε α → Prop}
    (h : ∀ answer s', E op answer s s' → (next answer).Ensures E Q s') :
    (ask op next).Ensures E Q s := ⟨trivial, h⟩

/-- A given result changes nothing. -/
theorem keeps_ofExcept {x : Except ε α} {Q : σ → Except ε α → Prop} :
    (ofExcept x : Script ε Ans α).Keeps E I Q s ↔ Q s x := by
  cases x <;> rfl

/-- Each branch has to meet the postcondition where it is taken. -/
theorem keeps_ite {c : Prop} [Decidable c] {p q : Script ε Ans α} {Q : σ → Except ε α → Prop}
    (hp : c → p.Keeps E I Q s) (hq : ¬c → q.Keeps E I Q s) :
    (if c then p else q).Keeps E I Q s := by
  by_cases h : c
  · rw [if_pos h]
    exact hp h
  · rw [if_neg h]
    exact hq h

/-- **Sequences.** The first part has to end where the second one may start. -/
theorem keeps_bind {p : Script ε Ans α} {f : α → Script ε Ans β} {Q : σ → Except ε β → Prop} :
    (p >>= f).Keeps E I Q s ↔ p.Keeps E I (fun s r => match r with
      | .ok a => (f a).Keeps E I Q s
      | .error e => Q s (.error e)) s := by
  induction p generalizing s with
  | done a => rfl
  | throw e => rfl
  | ask op next ih =>
    exact and_congr_right fun _ => forall_congr' fun answer => forall_congr' fun s' =>
      imp_congr_right fun _ => ih answer

/-- **Handlers.** What is raised has to be raised where the handler may start. -/
theorem keeps_tryCatch {p : Script ε Ans α} {handler : ε → Script ε' Ans α}
    {Q : σ → Except ε' α → Prop} :
    (p.tryCatch handler).Keeps E I Q s ↔ p.Keeps E I (fun s r => match r with
      | .ok a => Q s (.ok a)
      | .error e => (handler e).Keeps E I Q s) s := by
  induction p generalizing s with
  | done a => rfl
  | throw e => rfl
  | ask op next ih =>
    exact and_congr_right fun _ => forall_congr' fun answer => forall_congr' fun s' =>
      imp_congr_right fun _ => ih answer

/-- An attempt returns whatever comes out. -/
theorem keeps_attempt {p : Script ε Ans α} {Q : σ → Except ε' (Except ε α) → Prop} :
    (p.attempt : Script ε' Ans (Except ε α)).Keeps E I Q s ↔
      p.Keeps E I (fun s r => Q s (.ok r)) s := by
  induction p generalizing s with
  | done a => rfl
  | throw e => rfl
  | ask op next ih =>
    exact and_congr_right fun _ => forall_congr' fun answer => forall_congr' fun s' =>
      imp_congr_right fun _ => ih answer

/-- What follows a script goes on from what it returns. -/
theorem Keeps.bind {Q : σ → Except ε α → Prop} {Q' : σ → Except ε β → Prop} {p : Script ε Ans α}
    {f : α → Script ε Ans β} (h : p.Keeps E I Q s)
    (herror : ∀ s e, Q s (.error e) → Q' s (.error e))
    (hok : ∀ s a, Q s (.ok a) → (f a).Keeps E I Q' s) : (p >>= f).Keeps E I Q' s := by
  refine keeps_bind.2 (h.mono fun s' r hr => ?_)
  cases r with
  | ok a => exact hok s' a hr
  | error e => exact herror s' e hr

/-- A postcondition for scripts that return, and none for those that raise. -/
def returning (Post : σ → α → Prop) (s : σ) (r : Except ε α) : Prop := ∀ a, r = .ok a → Post s a

/-- A result that is returned has to satisfy the postcondition. -/
@[simp] theorem returning_ok {Post : σ → α → Prop} {a : α} :
    returning Post s (.ok a : Except ε α) ↔ Post s a :=
  ⟨fun h => h a rfl, fun h _ ha => Except.ok.inj ha ▸ h⟩

/-- Nothing is asked of what is raised. -/
@[simp] theorem returning_error {Post : σ → α → Prop} {e : ε} :
    returning Post s (.error e : Except ε α) := fun _ ha => nomatch ha

/-- The second part goes on from what the first part achieves. -/
theorem Keeps.bind_returning {p : Script ε Ans α} {f : α → Script ε Ans β} {Post : σ → α → Prop}
    {Post' : σ → β → Prop} (hp : p.Keeps E I (returning Post) s)
    (hf : ∀ s' a, Post s' a → (f a).Keeps E I (returning Post') s') :
    (p >>= f).Keeps E I (returning Post') s :=
  hp.bind (fun _ _ _ => returning_error) fun s' a ha => hf s' a (returning_ok.mp ha)

/-- Results that are guaranteed by the answers. -/
theorem Meets.ensures {A : (op : Op) → Ans op → Prop} {P : ε → Prop} {R : α → Prop}
    {p : Script ε Ans α} (h : p.Meets A P R)
    (hE : ∀ op answer s s', E op answer s s' → A op answer) :
    p.Ensures E (returning fun _ => R) s := by
  induction p generalizing s with
  | done a => exact returning_ok.mpr h
  | throw e => exact returning_error
  | ask op next ih => exact ensures_ask fun answer s' hs => ih answer (h answer (hE _ _ _ _ hs))

/-- Any result will do. -/
theorem ensures_anything {p : Script ε Ans α} : p.Ensures E (returning fun _ _ => True) s :=
  (Meets.anything p).ensures fun _ _ _ _ _ => trivial

/-- A script none of whose operations breaks the invariant keeps it to the end. -/
theorem Within.keeps {G : Op → Prop} {P : ε → Prop} {p : Script ε Ans α} (h : p.Within G P)
    (hI : ∀ op answer s s', G op → E op answer s s' → I s → I s') (hs : I s) :
    p.Keeps E I (fun s r => I s ∧ ErrorsIn P r) s := by
  induction p generalizing s with
  | done a => exact ⟨hs, .ok⟩
  | throw e => exact ⟨hs, ErrorsIn.error.mpr h⟩
  | ask op next ih => exact ⟨hs, fun answer s' hE => ih answer (h.2 answer) (hI _ _ _ _ h.1 hE hs)⟩

/-- What follows a script that keeps an invariant may rely on it. -/
theorem Within.bind_ensures {G : Op → Prop} {P : ε → Prop} {p : Script ε Ans α}
    {f : α → Script ε Ans β} {Q : σ → Except ε β → Prop} (h : p.Within G P)
    (hI : ∀ op answer s s', G op → E op answer s s' → I s → I s') (hs : I s)
    (hraised : ∀ s e, I s → P e → Q s (.error e)) (hf : ∀ a s, I s → (f a).Ensures E Q s) :
    (p >>= f).Ensures E Q s := by
  have hkept : p.Ensures E (fun s r => I s ∧ ErrorsIn P r) s :=
    (h.keeps hI hs).imp fun _ _ => trivial
  exact hkept.bind (fun s e hr => hraised s e hr.1 (ErrorsIn.error.mp hr.2))
    fun s a hr => hf a s hr.1

/-- **Recorded runs** satisfy the postcondition. -/
theorem Keeps.replay [DecidableEq Op] {Q : σ → Except ε α → Prop} {p : Script ε Ans α}
    {steps : List (Step Ans)} {r : Except ε α} (h : p.Keeps E I Q s)
    (hleads : Leads E steps s s') (hreplay : p.replay steps = some r) : Q s' r := by
  induction p generalizing s steps with
  | done a =>
    obtain ⟨rfl, rfl⟩ := replay_done.mp hreplay
    obtain rfl := hleads
    exact h
  | throw e =>
    obtain ⟨rfl, rfl⟩ := replay_throw.mp hreplay
    obtain rfl := hleads
    exact h
  | ask op next ih =>
    obtain ⟨answer, rest, rfl, hrest⟩ := replay_ask.mp hreplay
    obtain ⟨between, hE, hleads⟩ := hleads
    exact ih answer (h.2 answer between hE) hleads hrest

end Keeps

section Leads

variable {E : (op : Op) → Ans op → σ → σ → Prop} {s s' : σ}

/-- A world whose changes are allowed leads from its state to its last one. -/
theorem leads_exec {world : σ → (op : Op) → Ans op × σ}
    (h : ∀ s op, E op (world s op).1 s (world s op).2) (p : Script ε Ans α) (s : σ) :
    Leads E (p.exec world s).1 s (p.exec world s).2.2 := by
  induction p generalizing s with
  | done a => rfl
  | throw e => rfl
  | ask op next ih => exact ⟨_, h s op, ih _ _⟩

/-- In a world, each operation passes a check in the state in which it is issued. -/
def checks (world : σ → (op : Op) → Ans op × σ) (check : σ → Op → Bool) : Script ε Ans α → σ → Bool
  | .done _, _ => true
  | .throw _, _ => true
  | .ask op next, s => check s op && (next (world s op).1).checks world check (world s op).2

/-- Assumptions on the answers go into the relation. -/
theorem leads_and {A : (op : Op) → Ans op → Prop} {steps : List (Step Ans)}
    (hsteps : ∀ step ∈ steps, A step.op step.answer) (h : Leads E steps s s') :
    Leads (fun op answer s s' => A op answer ∧ E op answer s s') steps s s' := by
  induction steps generalizing s with
  | nil => exact h
  | cons step steps ih =>
    obtain ⟨between, hE, hrest⟩ := h
    obtain ⟨hstep, hsteps⟩ := List.forall_mem_cons.mp hsteps
    exact ⟨between, ⟨hstep, hE⟩, ih hsteps hrest⟩

/-- What every change guarantees of its answer holds of all answers. -/
theorem Leads.answers {A : (op : Op) → Ans op → Prop}
    (hE : ∀ op answer s s', E op answer s s' → A op answer) {steps : List (Step Ans)}
    (h : Leads E steps s s') : ∀ step ∈ steps, A step.op step.answer := by
  induction steps generalizing s with
  | nil => simp
  | cons step steps ih =>
    obtain ⟨between, hstep, hsteps⟩ := h
    exact List.forall_mem_cons.mpr ⟨hE _ _ _ _ hstep, ih hsteps⟩

/-- Steps that lead on under one relation do so under a weaker one. -/
theorem Leads.imp {E' : (op : Op) → Ans op → σ → σ → Prop}
    (hE : ∀ op answer s s', E op answer s s' → E' op answer s s') {steps : List (Step Ans)}
    (h : Leads E steps s s') : Leads E' steps s s' := by
  induction steps generalizing s with
  | nil => exact h
  | cons step steps ih =>
    obtain ⟨between, hstep, hsteps⟩ := h
    exact ⟨between, hE _ _ _ _ hstep, ih hsteps⟩

end Leads

end Script

end CoffeeOrder.Kit
