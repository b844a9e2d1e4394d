import CoffeeOrder.Kit.RowLock

/-!
# Calls that throw, and solo runs that are refused

`Call` is the monad of code that may throw in the middle: what it did before the
throw stays done. `Body.exec` runs a transaction body alone while the database
may refuse an insert or the commit; then nothing of it stays.
-/

namespace CoffeeOrder.Kit

/-- Code on a state: what it returns or throws, and the state it leaves. -/
def Call (ε σ α : Type) : Type := σ → Except ε α × σ

namespace Call

variable {ε σ α β : Type}

/-- The outcome of a call from a state. -/
def exec (call : Call ε σ α) (s : σ) : Except ε α × σ := call s

instance : Monad (Call ε σ) where
  pure a s := (.ok a, s)
  bind call next s :=
    match call s with
    | (.ok a, t) => next a t
    | (.error e, t) => (.error e, t)

instance : MonadExcept ε (Call ε σ) where
  throw e s := (.error e, s)
  tryCatch call handler s :=
    match call s with
    | (.ok a, t) => (.ok a, t)
    | (.error e, t) => handler e t

instance : MonadState σ (Call ε σ) where
  get s := (.ok s, s)
  set t _ := (.ok (), t)
  modifyGet f s := (.ok (f s).1, (f s).2)

variable (s : σ)

/-- A value is returned in the same state. -/
@[simp] theorem exec_pure (a : α) : (pure a : Call ε σ α).exec s = (.ok a, s) := rfl

/-- An exception is raised in the same state. -/
@[simp] theorem exec_throw (e : ε) : (throw e : Call ε σ α).exec s = (.error e, s) := rfl

/-- Reading the state leaves it as it is. -/
@[simp] theorem exec_get : (get : Call ε σ σ).exec s = (.ok s, s) := rfl

/-- A change of the state is made. -/
@[simp] theorem exec_modify (f : σ → σ) : (modify f : Call ε σ Unit).exec s = (.ok (), f s) := rfl

/-- The second call starts in the state where the first has returned. -/
theorem exec_bind (call : Call ε σ α) (next : α → Call ε σ β) :
    (call >>= next).exec s =
      match call.exec s with
      | (.ok a, t) => (next a).exec t
      | (.error e, t) => (.error e, t) := rfl

/-- The handler starts in the state where the exception was raised. -/
theorem exec_tryCatch (call : Call ε σ α) (handler : ε → Call ε σ α) :
    (tryCatch call handler).exec s =
      match call.exec s with
      | (.ok a, t) => (.ok a, t)
      | (.error e, t) => (handler e).exec t := rfl

/-- A call that does not change what `view` shows of the state. -/
def Keeps {τ : Type} (view : σ → τ) (call : Call ε σ α) : Prop :=
  ∀ s, view (call.exec s).2 = view s

section Keeps

variable {τ : Type} {view : σ → τ} {call : Call ε σ α}

/-- A value keeps every view of the state. -/
theorem keeps_pure (a : α) : Keeps view (pure a : Call ε σ α) := fun _ => rfl

/-- An exception keeps every view of the state. -/
theorem keeps_throw (e : ε) : Keeps view (throw e : Call ε σ α) := fun _ => rfl

/-- Reading the state keeps every view of it. -/
theorem keeps_get : Keeps view (get : Call ε σ σ) := fun _ => rfl

/-- A change that a view does not show keeps it. -/
theorem keeps_modify {f : σ → σ} (h : ∀ s, view (f s) = view s) :
    Keeps view (modify f : Call ε σ Unit) := h

/-- Calls one after the other keep what each of them keeps. -/
theorem Keeps.bind {next : α → Call ε σ β} (h : Keeps view call)
    (hnext : ∀ a, Keeps view (next a)) : Keeps view (call >>= next) := by
  intro s
  have hs := h s
  rw [exec_bind]
  rcases hcall : call.exec s with ⟨_ | a, t⟩
  · rwa [hcall] at hs
  · rw [hcall] at hs
    exact (hnext a t).trans hs

/-- A call with a handler keeps what both of them keep. -/
theorem Keeps.tryCatch {handler : ε → Call ε σ α} (h : Keeps view call)
    (hhandler : ∀ e, Keeps view (handler e)) : Keeps view (tryCatch call handler) := by
  intro s
  have hs := h s
  rw [exec_tryCatch]
  rcases hcall : call.exec s with ⟨e | _, t⟩
  · rw [hcall] at hs
    exact (hhandler e t).trans hs
  · rwa [hcall] at hs

end Keeps

end Call

variable {S : Schema} {α : Type}

/-- What the database refuses during a transaction, with the exception it answers. -/
structure Refusals (S : Schema) where
  insert : S.Record → Option S.Error := fun _ => none
  commit : Option S.Error := none

/-- Run a body alone: its result and what it has buffered. The clock stands still,
identifiers come from `nextId` on. -/
def Body.exec [DecidableEq S.Key] (tables : (q : S.Query) → S.Answer q)
    (rows : S.Key → Option S.Row) (input : S.Input) (refusals : Refusals S) :
    Body S α → Buffers S → ℕ → Except S.Error α × Buffers S
  | .done a, buf, _ => (.ok a, buf)
  | .throw e, buf, _ => (.error e, buf)
  | .query q next, buf, id => (next (tables q)).exec tables rows input refusals buf id
  | .input next, buf, id => (next input).exec tables rows input refusals buf id
  | .lock key next, buf, id =>
    (next (buf.view rows key)).exec tables rows input refusals
      (buf.noteLock key (buf.view rows key)) id
  | .update key row next, buf, id => next.exec tables rows input refusals (buf.write key row) id
  | .insert r next, buf, id =>
    match refusals.insert r with
    | some e => (.error e, buf)
    | none => (next id).exec tables rows input refusals (buf.insert id r) (id + 1)
  | .publish e next, buf, id => next.exec tables rows input refusals (buf.publish e) id

/-- A transaction around a body: the caller's result, the committed store and the
announcements the commit releases. -/
def Store.transact [DecidableEq S.Key] (st : Store S) (tables : (q : S.Query) → S.Answer q)
    (input : S.Input) (refusals : Refusals S) (nextId : ℕ) (body : Body S α) :
    Except S.Error α × Store S × List S.Event :=
  match body.exec tables st.rows input refusals {} nextId with
  | (.error e, _) => (.error e, st, [])
  | (.ok a, buf) =>
    match refusals.commit with
    | some e => (.error e, st, [])
    | none => (.ok a, st.apply buf, buf.events)

end CoffeeOrder.Kit
