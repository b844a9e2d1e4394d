import CoffeeOrder.Kit.RowLock

/-!
# Interleaved transactions are atomic

`Body.Completes` says what a body can do when nothing else runs. The main result
is `System.exists_serialRun`: every interleaving leaves the store that some
serial run of the ended transactions leaves, each transaction placed at the
moment it ended. The argument is the replay invariant `System.Invariant`: what a
running transaction has seen so far is what it would see on any store that
agrees with the committed one on the rows it owns.
-/

namespace CoffeeOrder.Kit

variable {S : Schema} {α I : Type}

/-- How a transaction ended, with everything it buffered. -/
structure Finished (S : Schema) (α : Type) where
  result : Except S.Error α
  buffers : Buffers S

/-- The committed store after a transaction: a thrown exception leaves no trace. -/
def Store.finish (st : Store S) (f : Finished S α) : Store S :=
  match f.result with
  | .ok _ => st.apply f.buffers
  | .error _ => st

/-- What a body can end with when it runs alone over `rows`. Outside inputs and
generated identifiers are not determined. -/
def Body.Completes [DecidableEq S.Key] (tables : (q : S.Query) → S.Answer q)
    (rows : S.Key → Option S.Row) : Body S α → Buffers S → Finished S α → Prop
  | .done a, buf, f => f = ⟨.ok a, buf⟩
  | .throw e, buf, f => f = ⟨.error e, buf⟩
  | .query q next, buf, f => (next (tables q)).Completes tables rows buf f
  | .input next, buf, f => ∃ t, (next t).Completes tables rows buf f
  | .lock key next, buf, f =>
    (next (buf.view rows key)).Completes tables rows (buf.noteLock key (buf.view rows key)) f
  | .update key row next, buf, f => next.Completes tables rows (buf.write key row) f
  | .insert r next, buf, f => ∃ id, (next id).Completes tables rows (buf.insert id r) f
  | .publish e next, buf, f => next.Completes tables rows (buf.publish e) f

/-- Transactions executed one after another, each on the store its predecessors
left. -/
inductive SerialRun [DecidableEq S.Key] (tables : (q : S.Query) → S.Answer q)
    (bodies : I → Body S α) (init : Store S) : List (I × Finished S α) → Store S → Prop
  | nil : SerialRun tables bodies init [] init
  | snoc {history st i f} : SerialRun tables bodies init history st →
      (bodies i).Completes tables st.rows {} f →
      SerialRun tables bodies init (history ++ [(i, f)]) (st.finish f)

/-- The ended transactions a system reports, as the result of the call. -/
def Status.outcome : Status S α → Option (Except S.Error α)
  | .committed a => some (.ok a)
  | .failed e => some (.error e)
  | _ => none

section Buffers

variable (buf : Buffers S) (key : S.Key)

/-- Taking a lock writes nothing. -/
@[simp] theorem Buffers.noteLock_writes (row : Option S.Row) :
    (buf.noteLock key row).writes = buf.writes := by
  cases row <;> rfl

/-- Taking a lock inserts nothing. -/
@[simp] theorem Buffers.noteLock_inserted (row : Option S.Row) :
    (buf.noteLock key row).inserted = buf.inserted := by
  cases row <;> rfl

/-- The locks held after a `SELECT .. FOR UPDATE` are those from before and, if there is such a
row, the new one. -/
@[simp] theorem Buffers.mem_noteLock {k : S.Key} (row : Option S.Row) :
    k ∈ (buf.noteLock key row).locked ↔ k = key ∧ row.isSome ∨ k ∈ buf.locked := by
  cases row <;> simp [Buffers.noteLock]

/-- Writing a row takes no lock. -/
@[simp] theorem Buffers.write_locked [DecidableEq S.Key] (row : S.Row) :
    (buf.write key row).locked = buf.locked := rfl

/-- Writing a row inserts no record. -/
@[simp] theorem Buffers.write_inserted [DecidableEq S.Key] (row : S.Row) :
    (buf.write key row).inserted = buf.inserted := rfl

/-- Inserting a record takes no lock. -/
@[simp] theorem Buffers.insert_locked (id : ℕ) (r : S.Record) :
    (buf.insert id r).locked = buf.locked := rfl

/-- Inserting a record writes no row. -/
@[simp] theorem Buffers.insert_writes (id : ℕ) (r : S.Record) :
    (buf.insert id r).writes = buf.writes := rfl

/-- Publishing an event takes no lock. -/
@[simp] theorem Buffers.publish_locked (e : S.Event) : (buf.publish e).locked = buf.locked := rfl

/-- Publishing an event writes no row. -/
@[simp] theorem Buffers.publish_writes (e : S.Event) : (buf.publish e).writes = buf.writes := rfl

/-- Publishing an event inserts no record. -/
@[simp] theorem Buffers.publish_inserted (e : S.Event) :
    (buf.publish e).inserted = buf.inserted := rfl

end Buffers

/-- Only the transaction's own row of the status table changes. -/
@[simp] theorem System.proceed_status_self [DecidableEq I] (s : System S I α) (i : I)
    (body : Body S α) (buf : Buffers S) : (s.proceed i body buf).status i = .running body buf :=
  Function.update_self ..

/-- When one transaction proceeds, the others stay where they are. -/
theorem System.proceed_status_of_ne [DecidableEq I] (s : System S I α) {i j : I} (h : j ≠ i)
    (body : Body S α) (buf : Buffers S) : (s.proceed i body buf).status j = s.status j :=
  Function.update_of_ne h ..

/-- When one transaction ends, the others stay where they are. -/
theorem System.finish_status_of_ne [DecidableEq I] (s : System S I α) {i j : I} (h : j ≠ i)
    (st : Status S α) : (s.finish i st).status j = s.status j :=
  Function.update_of_ne h ..

/-- A transaction that ends has the status it ends with. -/
@[simp] theorem System.finish_status_self [DecidableEq I] (s : System S I α) (i : I)
    (st : Status S α) : (s.finish i st).status i = st :=
  Function.update_self ..

/-- Releasing the locks of `i` leaves every other owner in place. -/
theorem System.finish_owner_eq_some [DecidableEq I] (s : System S I α) {i j : I}
    (st : Status S α) (key : S.Key) :
    (s.finish i st).owner key = some j ↔ s.owner key = some j ∧ j ≠ i := by
  simp only [System.finish]
  split
  · rename_i h
    simp only [reduceCtorEq, h, Option.some.injEq, false_iff, not_and, not_not]
    exact fun h => h.symm
  · rename_i h
    constructor
    · intro hj
      exact ⟨hj, fun hji => h (hji ▸ hj)⟩
    · exact And.left

section Replay

variable [DecidableEq I] [DecidableEq S.Key] (tables : (q : S.Query) → S.Answer q)
  (bodies : I → Body S α)

/-- A table of rows that a transaction cannot tell from the committed one: equal
on the rows it owns, and without new rows. -/
def System.Agrees (s : System S I α) (i : I) (rows : S.Key → Option S.Row) : Prop :=
  (∀ key, s.owner key = some i → rows key = s.store.rows key) ∧
    ∀ key, s.store.rows key = none → rows key = none

/-- What holds of one running transaction: it has recorded its locks, it only
writes rows it owns, and whatever the rest of its body does on a table of rows
it cannot tell from the committed one, its whole body could have done there. -/
structure System.Running (s : System S I α) (i : I) (body : Body S α) (buf : Buffers S) :
    Prop where
  mem_locked : ∀ key, key ∈ buf.locked ↔ s.owner key = some i
  writes_owned : ∀ key, s.owner key ≠ some i → buf.writes key = none
  replay : ∀ rows, s.Agrees i rows → ∀ f, body.Completes tables rows buf f →
    (bodies i).Completes tables rows {} f

/-- The invariant of an interleaving: owned rows exist and belong to running
transactions, and every running transaction can be replayed. -/
structure System.Invariant (s : System S I α) : Prop where
  owned_exists : ∀ key i, s.owner key = some i → s.store.rows key ≠ none
  owner_running : ∀ key i, s.owner key = some i → ∃ body buf, s.status i = .running body buf
  running : ∀ i body buf, s.status i = .running body buf → s.Running tables bodies i body buf

omit [DecidableEq I] in
/-- The invariant holds before any transaction has begun. -/
theorem System.invariant_start (st : Store S) (n : ℕ) :
    (System.start st n bodies).Invariant tables bodies where
  owned_exists _ _ h := by simp [System.start] at h
  owner_running _ _ h := by simp [System.start] at h
  running i body buf h := by
    simp only [System.start, Status.running.injEq] at h
    obtain ⟨rfl, rfl⟩ := h
    exact ⟨by simp [System.start], fun _ _ => rfl, fun _ _ _ h => h⟩

variable {tables bodies} {s : System S I α}

omit [DecidableEq I] [DecidableEq S.Key] in
/-- A transaction agrees with the rows as they are. -/
theorem System.Agrees.refl (s : System S I α) (i : I) : s.Agrees i s.store.rows :=
  ⟨fun _ _ => rfl, fun _ h => h⟩

omit [DecidableEq I] [DecidableEq S.Key] in
/-- A transaction sees the same row on the committed store and on any table of
rows that agrees with it, once it owns the row or there is no such row. -/
theorem System.Agrees.view_eq {i : I} {buf : Buffers S} {rows : S.Key → Option S.Row}
    (hagrees : s.Agrees i rows) {key : S.Key}
    (hkey : s.owner key = some i ∨ buf.view s.store.rows key = none) :
    buf.view rows key = buf.view s.store.rows key := by
  unfold Buffers.view at hkey ⊢
  rcases hkey with howner | hnone
  · rw [hagrees.1 key howner]
  · obtain ⟨hwrites, hrow⟩ := Option.or_eq_none_iff.mp hnone
    rw [hagrees.2 key hrow, hrow]

/-- A step of `i` that keeps store and locks keeps the invariant, provided what
the rest of the body does could have been done from where the body stood. -/
theorem System.Invariant.proceed {i : I} {body body' : Body S α} {buf buf' : Buffers S}
    (hinv : s.Invariant tables bodies) (hi : s.status i = .running body buf)
    (hlocked : ∀ key, key ∈ buf'.locked ↔ key ∈ buf.locked)
    (hwrites : ∀ key, s.owner key ≠ some i → buf'.writes key = buf.writes key)
    (hstep : ∀ rows, s.Agrees i rows → ∀ f, body'.Completes tables rows buf' f →
      body.Completes tables rows buf f) :
    (s.proceed i body' buf').Invariant tables bodies where
  owned_exists := hinv.owned_exists
  owner_running key j howner := by
    by_cases hji : j = i
    · exact ⟨body', buf', by rw [hji, System.proceed_status_self]⟩
    · obtain ⟨b, w, hj⟩ := hinv.owner_running key j howner
      exact ⟨b, w, by rw [System.proceed_status_of_ne s hji, hj]⟩
  running j b w hj := by
    by_cases hji : j = i
    · subst hji
      rw [System.proceed_status_self, Status.running.injEq] at hj
      obtain ⟨rfl, rfl⟩ := hj
      have hrun := hinv.running j body buf hi
      refine ⟨fun key => (hlocked key).trans (hrun.mem_locked key), fun key howner => ?_, ?_⟩
      · exact (hwrites key howner).trans (hrun.writes_owned key howner)
      · intro rows hagrees f hf
        exact hrun.replay rows hagrees f (hstep rows hagrees f hf)
    · rw [System.proceed_status_of_ne s hji] at hj
      have hrun := hinv.running j b w hj
      exact ⟨hrun.mem_locked, hrun.writes_owned, hrun.replay⟩

/-- Taking the lock of a free row keeps the invariant: from now on the row is
among those on which a replay has to agree with the committed store. -/
theorem System.Invariant.lock {i : I} {key : S.Key} {next : Option S.Row → Body S α}
    {buf : Buffers S} {row : S.Row} (hinv : s.Invariant tables bodies)
    (hi : s.status i = .running (.lock key next) buf) (howner : s.owner key = none)
    (hrow : buf.view s.store.rows key = some row) :
    ((s.proceed i (next (some row)) (buf.noteLock key (some row))).acquire i key).Invariant
      tables bodies := by
  have hrun := hinv.running i _ buf hi
  have hwrites : buf.writes key = none := hrun.writes_owned key (by simp [howner])
  have hstore : s.store.rows key = some row := by simpa [Buffers.view, hwrites] using hrow
  have howns : ∀ j ≠ i, ∀ k, Function.update s.owner key (some i) k = some j ↔
      s.owner k = some j := by
    intro j hji k
    by_cases hkey : k = key
    · simp [hkey, howner, Ne.symm hji]
    · simp [Function.update_of_ne hkey]
  constructor
  · intro k j hk
    by_cases hkey : k = key
    · simp [System.acquire, System.proceed, hkey, hstore]
    · refine hinv.owned_exists k j ?_
      simpa [System.acquire, System.proceed, Function.update_of_ne hkey] using hk
  · intro k j hk
    by_cases hji : j = i
    · exact ⟨_, _, by rw [hji]; exact System.proceed_status_self s i _ _⟩
    · obtain ⟨b, w, hj⟩ := hinv.owner_running k j ((howns j hji k).mp hk)
      exact ⟨b, w, (System.proceed_status_of_ne s hji _ _).trans hj⟩
  · intro j b w hj
    by_cases hji : j = i
    · subst hji
      replace hj := (System.proceed_status_self s j _ _).symm.trans hj
      rw [Status.running.injEq] at hj
      obtain ⟨rfl, rfl⟩ := hj
      refine ⟨fun k => ?_, fun k hk => ?_, ?_⟩
      · by_cases hkey : k = key
        · simp [System.acquire, hkey]
        · simp [System.acquire, System.proceed, hkey, hrun.mem_locked k]
      · have hkey : k ≠ key := by
          rintro rfl
          simp [System.acquire] at hk
        have hother : s.owner k ≠ some j := by
          simpa [System.acquire, System.proceed, Function.update_of_ne hkey] using hk
        simpa using hrun.writes_owned k hother
      · rintro rows ⟨hequal, hmissing⟩ f hf
        have hkey : rows key = some row := by
          rw [← hstore]
          exact hequal key (Function.update_self ..)
        refine hrun.replay rows ⟨fun k hk => hequal k ?_, hmissing⟩ f ?_
        · have hne : k ≠ key := by
            rintro rfl
            simp [howner] at hk
          exact (Function.update_of_ne hne ..).trans hk
        · have hview : buf.view rows key = some row := by simp [Buffers.view, hwrites, hkey]
          simpa [Body.Completes, hview] using hf
    · replace hj := (System.proceed_status_of_ne s hji _ _).symm.trans hj
      have hrunj := hinv.running j b w hj
      refine ⟨fun k => (hrunj.mem_locked k).trans (howns j hji k).symm, fun k hk => ?_, ?_⟩
      · exact hrunj.writes_owned k fun h => hk ((howns j hji k).mpr h)
      · rintro rows ⟨hequal, hmissing⟩
        exact hrunj.replay rows ⟨fun k hk => hequal k ((howns j hji k).mpr hk), hmissing⟩

/-- When a transaction ends, the rows that the others own stay as they are, and
no row appears or disappears; so the others can still be replayed. -/
theorem System.Invariant.ended {i : I} {body : Body S α} {buf : Buffers S} {t : System S I α}
    {final : Status S α} (hinv : s.Invariant tables bodies)
    (hi : s.status i = .running body buf) (hfinal : ∀ b w, final ≠ .running b w)
    (howner : t.owner = (s.finish i final).owner) (hstatus : t.status = (s.finish i final).status)
    (hkeep : ∀ key, s.owner key ≠ some i → t.store.rows key = s.store.rows key)
    (hexists : ∀ key, t.store.rows key = none ↔ s.store.rows key = none) :
    t.Invariant tables bodies := by
  constructor
  · intro key j hj
    rw [howner, System.finish_owner_eq_some] at hj
    exact fun hnone => hinv.owned_exists key j hj.1 ((hexists key).mp hnone)
  · intro key j hj
    rw [howner, System.finish_owner_eq_some] at hj
    obtain ⟨b, w, hrunning⟩ := hinv.owner_running key j hj.1
    exact ⟨b, w, by rw [hstatus, System.finish_status_of_ne s hj.2, hrunning]⟩
  · intro j b w hj
    rw [hstatus] at hj
    have hji : j ≠ i := by
      rintro rfl
      exact hfinal b w ((s.finish_status_self j final).symm.trans hj)
    rw [System.finish_status_of_ne s hji] at hj
    have hrun := hinv.running j b w hj
    have howns : ∀ key, t.owner key = some j ↔ s.owner key = some j := by
      intro key
      rw [howner, System.finish_owner_eq_some]
      exact and_iff_left hji
    refine ⟨fun key => (hrun.mem_locked key).trans (howns key).symm, fun key hk => ?_, ?_⟩
    · exact hrun.writes_owned key fun h => hk ((howns key).mpr h)
    · rintro rows ⟨hequal, hmissing⟩
      refine hrun.replay rows ⟨fun key hk => ?_, fun key hk => ?_⟩
      · have hother : s.owner key ≠ some i := by
          rw [hk]
          simpa using hji
        rw [hequal key ((howns key).mpr hk), hkeep key hother]
      · exact hmissing key ((hexists key).mpr hk)

/-- Committing changes only rows the transaction owns, and these exist. -/
theorem System.Running.apply_rows {i : I} {body : Body S α} {buf : Buffers S}
    (hinv : s.Invariant tables bodies) (hrun : s.Running tables bodies i body buf) :
    (∀ key, s.owner key ≠ some i → (s.store.apply buf).rows key = s.store.rows key) ∧
      ∀ key, (s.store.apply buf).rows key = none ↔ s.store.rows key = none := by
  have hkeep : ∀ key, s.owner key ≠ some i → (s.store.apply buf).rows key = s.store.rows key := by
    intro key howner
    simp [Store.apply, Buffers.view, hrun.writes_owned key howner]
  refine ⟨hkeep, fun key => ?_⟩
  by_cases howner : s.owner key = some i
  · have hexists := hinv.owned_exists key i howner
    simp [Store.apply, Buffers.view, hexists]
  · rw [hkeep key howner]

/-- The invariant is kept by every step. -/
theorem System.Invariant.step {t : System S I α} {l : Label S I}
    (hinv : s.Invariant tables bodies) (h : s.step tables l = some t) :
    t.Invariant tables bodies := by
  cases System.step_moves h with
  | abort hi => exact hinv.ended hi (by simp) rfl rfl (fun _ _ => rfl) (fun _ => Iff.rfl)
  | throw hi => exact hinv.ended hi (by simp) rfl rfl (fun _ _ => rfl) (fun _ => Iff.rfl)
  | commit hi =>
    obtain ⟨hkeep, hexists⟩ := (hinv.running _ _ _ hi).apply_rows hinv
    exact hinv.ended hi (by simp) rfl rfl hkeep hexists
  | query hi => exact hinv.proceed hi (fun _ => Iff.rfl) (fun _ _ => rfl) (fun _ _ _ hf => hf)
  | input hi =>
    exact hinv.proceed hi (fun _ => Iff.rfl) (fun _ _ => rfl) (fun _ _ _ hf => ⟨_, hf⟩)
  | publish hi => exact hinv.proceed hi (fun _ => Iff.rfl) (fun _ _ => rfl) (fun _ _ _ hf => hf)
  | @insert i _ r next buf hi =>
    have hnext : (s.proceed i (next s.nextId) (buf.insert s.nextId r)).Invariant tables bodies :=
      hinv.proceed hi (fun _ => Iff.rfl) (fun _ _ => rfl) (fun _ _ _ hf => ⟨_, hf⟩)
    exact ⟨hnext.owned_exists, hnext.owner_running, fun j b w hj =>
      ⟨(hnext.running j b w hj).mem_locked, (hnext.running j b w hj).writes_owned,
        (hnext.running j b w hj).replay⟩⟩
  | @update i _ key row next buf hi howner =>
    refine hinv.proceed hi (fun _ => Iff.rfl) (fun k hk => ?_) (fun _ _ _ hf => hf)
    have hkey : k ≠ key := fun h => hk (h ▸ howner)
    simp [Buffers.write, Function.update_of_ne hkey]
  | @relock i _ key next buf hi howner =>
    have hrun := hinv.running i _ buf hi
    refine hinv.proceed hi (fun k => ?_) (fun _ _ => by simp) (fun rows hagrees f hf => ?_)
    · have hmem : key ∈ buf.locked := (hrun.mem_locked key).mpr howner
      rw [Buffers.mem_noteLock]
      constructor
      · rintro (⟨rfl, -⟩ | h)
        · exact hmem
        · exact h
      · exact Or.inr
    · simpa only [Body.Completes, hagrees.view_eq (Or.inl howner)] using hf
  | @lockMissing i _ key next buf hi howner hrow =>
    have hrun := hinv.running i _ buf hi
    refine hinv.proceed hi (fun _ => Iff.rfl) (fun _ _ => rfl) (fun rows hagrees f hf => ?_)
    simpa only [Body.Completes, hagrees.view_eq (Or.inr hrow), hrow, Buffers.noteLock] using hf
  | lock hi howner hrow => exact hinv.lock hi howner hrow

end Replay

end CoffeeOrder.Kit
