import CoffeeOrder.Kit.Machine
import Mathlib.Logic.Function.Basic

/-!
# Transactions with exclusive row locks

A transaction body is a finite tree of database statements. Bodies of many
transactions are interleaved statement by statement over one store: a locking
read waits while another transaction owns the row, reads the latest committed
row, and owns it until the transaction ends; updates and inserts stay in the
transaction's buffers until it commits, and vanish when it rolls back.
Generated identifiers come from one counter, which a rollback does not rewind.
-/

namespace CoffeeOrder.Kit

/-- The vocabulary of a database: what is read without a lock, what is locked,
what is inserted, and what a transaction announces when it commits. -/
structure Schema where
  /-- Reads of tables that no transaction writes. -/
  Query : Type
  /-- The answer to such a read. -/
  Answer : Query → Type
  /-- Inputs from outside the database, such as a clock reading. -/
  Input : Type
  /-- Keys of the rows that are locked and updated. -/
  Key : Type
  /-- The contents of such a row. -/
  Row : Type
  /-- Rows that are only ever inserted. -/
  Record : Type
  /-- Announcements released by a commit. -/
  Event : Type
  /-- Exceptions a body ends with. -/
  Error : Type

/-- A transaction body: the statements it issues, each with what follows it. -/
inductive Body (S : Schema) (α : Type) : Type
  | done (a : α)
  | throw (e : S.Error)
  | query (q : S.Query) (next : S.Answer q → Body S α)
  | input (next : S.Input → Body S α)
  | lock (key : S.Key) (next : Option S.Row → Body S α)
  | update (key : S.Key) (row : S.Row) (next : Body S α)
  | insert (r : S.Record) (next : ℕ → Body S α)
  | publish (e : S.Event) (next : Body S α)

variable {S : Schema} {α β I : Type}

/-- Continue with `f` where the body would return. -/
def Body.bind : Body S α → (α → Body S β) → Body S β
  | .done a, f => f a
  | .throw e, _ => .throw e
  | .query q next, f => .query q fun a => (next a).bind f
  | .input next, f => .input fun t => (next t).bind f
  | .lock key next, f => .lock key fun row => (next row).bind f
  | .update key row next, f => .update key row (next.bind f)
  | .insert r next, f => .insert r fun id => (next id).bind f
  | .publish e next, f => .publish e (next.bind f)

instance : Monad (Body S) where
  pure := .done
  bind := .bind

/-- The statements of a schema, as bodies that return the statement's answer. -/
def Body.ask (q : S.Query) : Body S (S.Answer q) := .query q .done

@[inherit_doc Body.ask] def Body.read : Body S S.Input := .input .done

@[inherit_doc Body.ask] def Body.lockRow (key : S.Key) : Body S (Option S.Row) := .lock key .done

@[inherit_doc Body.ask] def Body.updateRow (key : S.Key) (row : S.Row) : Body S Unit :=
  .update key row (.done ())

@[inherit_doc Body.ask] def Body.insertRow (r : S.Record) : Body S ℕ := .insert r .done

@[inherit_doc Body.ask] def Body.announce (e : S.Event) : Body S Unit := .publish e (.done ())

section BindLemmas

variable (f : α → Body S β)

/-- A value is a body that is done. -/
@[simp] theorem Body.pure_eq (a : α) : (pure a : Body S α) = .done a := rfl

/-- What follows a body that is done. -/
@[simp] theorem Body.done_bind (a : α) : (Body.done a : Body S α) >>= f = f a := rfl

/-- An exception ends the body. -/
@[simp] theorem Body.throw_bind (e : S.Error) :
    (Body.throw e : Body S α) >>= f = .throw e := rfl

/-- What follows a query follows its answer. -/
@[simp] theorem Body.query_bind (q : S.Query) (next : S.Answer q → Body S α) :
    Body.query q next >>= f = .query q fun a => next a >>= f := rfl

/-- What follows an input follows its value. -/
@[simp] theorem Body.input_bind (next : S.Input → Body S α) :
    Body.input next >>= f = .input fun t => next t >>= f := rfl

/-- What follows a lock follows the locked row. -/
@[simp] theorem Body.lock_bind (key : S.Key) (next : Option S.Row → Body S α) :
    Body.lock key next >>= f = .lock key fun row => next row >>= f := rfl

/-- What follows an update follows the rest of its body. -/
@[simp] theorem Body.update_bind (key : S.Key) (row : S.Row) (next : Body S α) :
    Body.update key row next >>= f = .update key row (next >>= f) := rfl

/-- What follows an insert follows the new id. -/
@[simp] theorem Body.insert_bind (r : S.Record) (next : ℕ → Body S α) :
    Body.insert r next >>= f = .insert r fun id => next id >>= f := rfl

/-- What follows an event follows the rest of its body. -/
@[simp] theorem Body.publish_bind (e : S.Event) (next : Body S α) :
    Body.publish e next >>= f = .publish e (next >>= f) := rfl

/-- Mapping the result is a last step. -/
@[simp] theorem Body.map_eq_bind (g : α → β) (b : Body S α) :
    g <$> b = b >>= fun a => .done (g a) := rfl

end BindLemmas

/-- What a transaction has done so far and nobody else sees yet. -/
structure Buffers (S : Schema) where
  /-- Keys of the existing rows it has locked. -/
  locked : List S.Key := []
  /-- New contents of rows it has updated. -/
  writes : S.Key → Option S.Row := fun _ => none
  /-- Inserted rows with their generated identifiers. -/
  inserted : List (ℕ × S.Record) := []
  /-- Announcements to release at commit. -/
  events : List S.Event := []

/-- The committed database: lockable rows, and inserted rows in commit order. -/
structure Store (S : Schema) where
  rows : S.Key → Option S.Row
  log : List (ℕ × S.Record)

/-- The row a transaction sees: its own update, or else the committed row. -/
def Buffers.view (buf : Buffers S) (rows : S.Key → Option S.Row) (key : S.Key) : Option S.Row :=
  (buf.writes key).or (rows key)

/-- Remember that an existing row was locked. -/
def Buffers.noteLock (buf : Buffers S) (key : S.Key) : Option S.Row → Buffers S
  | some _ => { buf with locked := key :: buf.locked }
  | none => buf

/-- A written row, which only the transaction itself sees. -/
def Buffers.write [DecidableEq S.Key] (buf : Buffers S) (key : S.Key) (row : S.Row) : Buffers S :=
  { buf with writes := Function.update buf.writes key (some row) }

/-- An inserted record, which is appended to the log at the commit. -/
def Buffers.insert (buf : Buffers S) (id : ℕ) (r : S.Record) : Buffers S :=
  { buf with inserted := buf.inserted ++ [(id, r)] }

/-- A published event, which is released at the commit. -/
def Buffers.publish (buf : Buffers S) (e : S.Event) : Buffers S :=
  { buf with events := buf.events ++ [e] }

/-- Make the buffered changes of a transaction permanent. -/
def Store.apply (st : Store S) (buf : Buffers S) : Store S where
  rows key := buf.view st.rows key
  log := st.log ++ buf.inserted

/-- Where a transaction stands. -/
inductive Status (S : Schema) (α : Type) : Type
  | running (body : Body S α) (buf : Buffers S)
  | committed (a : α)
  | failed (e : S.Error)
  | aborted

/-- The database with the transactions that use it. -/
structure System (S : Schema) (I α : Type) where
  store : Store S
  /-- The next generated identifier. -/
  nextId : ℕ
  /-- Who owns the exclusive lock of a row. -/
  owner : S.Key → Option I
  status : I → Status S α
  /-- Announcements of committed transactions, in commit order. -/
  outbox : List (I × S.Event)

/-- A scheduling decision: let transaction `i` issue its next statement, with
the outside input it gets if it asks for one, or abort it where it stands. -/
inductive Label (S : Schema) (I : Type) : Type
  | run (i : I) (t : S.Input)
  | abort (i : I)

/-- Nothing has been issued yet. -/
def System.start (st : Store S) (nextId : ℕ) (bodies : I → Body S α) : System S I α where
  store := st
  nextId := nextId
  owner _ := none
  status i := .running (bodies i) {}
  outbox := []

section Step

variable [DecidableEq I] (s : System S I α)

/-- Transaction `i` moves on to the rest of its body. -/
def System.proceed (i : I) (body : Body S α) (buf : Buffers S) : System S I α :=
  { s with status := Function.update s.status i (.running body buf) }

/-- Transaction `i` owns the row from now on. -/
def System.acquire [DecidableEq S.Key] (i : I) (key : S.Key) : System S I α :=
  { s with owner := Function.update s.owner key (some i) }

/-- The next generated identifier has been handed out. -/
def System.drawId (s : System S I α) : System S I α := { s with nextId := s.nextId + 1 }

/-- Transaction `i` ends and gives back its locks; its buffers are dropped. -/
def System.finish (i : I) (end_ : Status S α) : System S I α :=
  { s with
    owner := fun key => if s.owner key = some i then none else s.owner key
    status := Function.update s.status i end_ }

/-- Transaction `i` ends after making its buffers permanent. -/
def System.commit (i : I) (a : α) (buf : Buffers S) : System S I α where
  store := s.store.apply buf
  nextId := s.nextId
  owner := (s.finish i (.committed a)).owner
  status := (s.finish i (.committed a)).status
  outbox := s.outbox ++ buf.events.map fun e => (i, e)

variable [DecidableEq S.Key]

/-- A locking read: it waits while somebody else owns the row; otherwise it
reads the latest row and, if there is one, owns it from now on. -/
def System.lock (i : I) (key : S.Key) (next : Option S.Row → Body S α) (buf : Buffers S) :
    Option (System S I α) :=
  let row := buf.view s.store.rows key
  match s.owner key with
  | some j => if j = i then some (s.proceed i (next row) (buf.noteLock key row)) else none
  | none =>
    match row with
    | none => some (s.proceed i (next none) buf)
    | some _ => some ((s.proceed i (next row) (buf.noteLock key row)).acquire i key)

/-- One statement of one transaction. An update needs the lock of its row. -/
def System.step (tables : (q : S.Query) → S.Answer q) (s : System S I α) :
    Label S I → Option (System S I α)
  | .abort i =>
    match s.status i with
    | .running _ _ => some (s.finish i .aborted)
    | _ => none
  | .run i t =>
    match s.status i with
    | .running body buf =>
      match body with
      | .done a => some (s.commit i a buf)
      | .throw e => some (s.finish i (.failed e))
      | .query q next => some (s.proceed i (next (tables q)) buf)
      | .input next => some (s.proceed i (next t) buf)
      | .lock key next => s.lock i key next buf
      | .update key row next =>
        if s.owner key = some i then some (s.proceed i next (buf.write key row)) else none
      | .insert r next =>
        some (s.proceed i (next s.nextId) (buf.insert s.nextId r)).drawId
      | .publish e next => some (s.proceed i next (buf.publish e))
    | _ => none

/-- Everything a step can do, one constructor for each kind of statement. The
constructors for a lock separate a row already owned, a missing row and a free
row. -/
inductive System.Moves (tables : (q : S.Query) → S.Answer q) (s : System S I α) :
    Label S I → System S I α → Prop
  | abort {i body buf} (h : s.status i = .running body buf) :
      Moves tables s (.abort i) (s.finish i .aborted)
  | commit {i t a buf} (h : s.status i = .running (.done a) buf) :
      Moves tables s (.run i t) (s.commit i a buf)
  | throw {i t e buf} (h : s.status i = .running (.throw e) buf) :
      Moves tables s (.run i t) (s.finish i (.failed e))
  | query {i t q next buf} (h : s.status i = .running (.query q next) buf) :
      Moves tables s (.run i t) (s.proceed i (next (tables q)) buf)
  | input {i t next buf} (h : s.status i = .running (.input next) buf) :
      Moves tables s (.run i t) (s.proceed i (next t) buf)
  | relock {i t key next buf} (h : s.status i = .running (.lock key next) buf)
      (howner : s.owner key = some i) :
      Moves tables s (.run i t) (s.proceed i (next (buf.view s.store.rows key))
        (buf.noteLock key (buf.view s.store.rows key)))
  | lockMissing {i t key next buf} (h : s.status i = .running (.lock key next) buf)
      (howner : s.owner key = none) (hrow : buf.view s.store.rows key = none) :
      Moves tables s (.run i t) (s.proceed i (next none) buf)
  | lock {i t key next buf row} (h : s.status i = .running (.lock key next) buf)
      (howner : s.owner key = none) (hrow : buf.view s.store.rows key = some row) :
      Moves tables s (.run i t)
        ((s.proceed i (next (some row)) (buf.noteLock key (some row))).acquire i key)
  | update {i t key row next buf} (h : s.status i = .running (.update key row next) buf)
      (howner : s.owner key = some i) :
      Moves tables s (.run i t) (s.proceed i next (buf.write key row))
  | insert {i t r next buf} (h : s.status i = .running (.insert r next) buf) :
      Moves tables s (.run i t) (s.proceed i (next s.nextId) (buf.insert s.nextId r)).drawId
  | publish {i t e next buf} (h : s.status i = .running (.publish e next) buf) :
      Moves tables s (.run i t) (s.proceed i next (buf.publish e))

/-- A successful step is one of the listed moves. -/
theorem System.step_moves {tables : (q : S.Query) → S.Answer q} {s t : System S I α}
    {l : Label S I} (h : s.step tables l = some t) : System.Moves tables s l t := by
  cases l with
  | abort i =>
    cases hi : s.status i with
    | running body buf =>
      simp only [System.step, hi, Option.some.injEq] at h
      exact h ▸ .abort hi
    | committed | failed | aborted => simp [System.step, hi] at h
  | run i input =>
    cases hi : s.status i with
    | committed | failed | aborted => simp [System.step, hi] at h
    | running body buf =>
      cases body with
      | done a =>
        simp only [System.step, hi, Option.some.injEq] at h
        exact h ▸ .commit hi
      | throw e =>
        simp only [System.step, hi, Option.some.injEq] at h
        exact h ▸ .throw hi
      | query q next =>
        simp only [System.step, hi, Option.some.injEq] at h
        exact h ▸ .query hi
      | input next =>
        simp only [System.step, hi, Option.some.injEq] at h
        exact h ▸ .input hi
      | update key row next =>
        simp only [System.step, hi, Option.ite_none_right_eq_some, Option.some.injEq] at h
        exact h.2 ▸ .update hi h.1
      | insert r next =>
        simp only [System.step, hi, Option.some.injEq] at h
        exact h ▸ .insert hi
      | publish e next =>
        simp only [System.step, hi, Option.some.injEq] at h
        exact h ▸ .publish hi
      | lock key next =>
        simp only [System.step, hi, System.lock] at h
        cases howner : s.owner key with
        | some j =>
          simp only [howner, Option.ite_none_right_eq_some, Option.some.injEq] at h
          obtain ⟨rfl, h⟩ := h
          exact h ▸ .relock hi howner
        | none =>
          cases hrow : buf.view s.store.rows key with
          | none =>
            simp only [howner, hrow, Option.some.injEq] at h
            exact h ▸ .lockMissing hi howner hrow
          | some row =>
            simp only [howner, hrow, Option.some.injEq] at h
            exact h ▸ .lock hi howner hrow

end Step

end CoffeeOrder.Kit
