import CoffeeOrder.Kit.Atomicity
import Mathlib.Data.List.Nodup

/-!
# The serial history behind an interleaving

An interleaving is explained by the list of its ended transactions in the order
they ended: run one after another, they give the same store, the same results
and the same announcements. For each row, that order is the order in which its
lock was taken, because a lock is held until its transaction ends.
-/

namespace CoffeeOrder.Kit

variable {S : Schema} {α I : Type}

/-- The announcements a transaction releases: none unless it committed. -/
def Finished.released (f : Finished S α) : List S.Event :=
  match f.result with
  | .ok _ => f.buffers.events
  | .error _ => []

/-- An invariant of the store that every transaction keeps, when it runs alone,
holds after every serial run. -/
theorem SerialRun.invariant [DecidableEq S.Key] {tables : (q : S.Query) → S.Answer q}
    {bodies : I → Body S α} {init st : Store S} {history : List (I × Finished S α)}
    {P : Store S → Prop} (hrun : SerialRun tables bodies init history st) (hinit : P init)
    (hstep : ∀ st i f, P st → (bodies i).Completes tables st.rows {} f → P (st.finish f)) :
    P st := by
  induction hrun with
  | nil => exact hinit
  | snoc _ hcompletes ih => exact hstep _ _ _ ih hcompletes

/-- The rows a transaction leaves in the log: none unless it committed. -/
def Finished.logged (f : Finished S α) : List (ℕ × S.Record) :=
  match f.result with
  | .ok _ => f.buffers.inserted
  | .error _ => []

/-- A commit appends what the transaction has inserted. -/
theorem Store.finish_log (st : Store S) (f : Finished S α) :
    (st.finish f).log = st.log ++ f.logged := by
  unfold Store.finish Finished.logged
  cases f.result
  · exact (List.append_nil _).symm
  · rfl

/-- A serial run appends what its transactions leave. -/
theorem SerialRun.log_eq [DecidableEq S.Key] {tables : (q : S.Query) → S.Answer q}
    {bodies : I → Body S α} {init st : Store S} {history : List (I × Finished S α)}
    (h : SerialRun tables bodies init history st) :
    st.log = init.log ++ history.flatMap fun e => e.2.logged := by
  induction h with
  | nil => simp
  | snoc _ _ ih => rw [Store.finish_log, ih, List.flatMap_append, List.append_assoc]; simp

/-- What holds of every transaction that completes holds of every entry of a history. -/
theorem SerialRun.forall_completes [DecidableEq S.Key] {tables : (q : S.Query) → S.Answer q}
    {bodies : I → Body S α} {init st : Store S} {history : List (I × Finished S α)}
    {P : Finished S α → Prop} (h : SerialRun tables bodies init history st)
    (hP : ∀ i rows f, (bodies i).Completes tables rows {} f → P f) : ∀ e ∈ history, P e.2 := by
  induction h with
  | nil => simp
  | snoc _ hcompletes ih =>
    intro e he
    rcases List.mem_append.mp he with hold | hnew
    · exact ih e hold
    · obtain rfl : e = _ := by simpa using hnew
      exact hP _ _ _ hcompletes

/-- A step only adds announcements. -/
theorem System.step_outbox [DecidableEq I] [DecidableEq S.Key]
    {tables : (q : S.Query) → S.Answer q} {s t : System S I α} {l : Label S I}
    (h : s.step tables l = some t) : ∃ released, t.outbox = s.outbox ++ released := by
  cases System.step_moves h with
  | commit => exact ⟨_, rfl⟩
  | _ => exact ⟨[], (List.append_nil _).symm⟩

section LockOrder

variable [DecidableEq I] [DecidableEq S.Key]

/-- The free row, if any, whose lock a step takes. -/
def System.acquisitions (s : System S I α) : Label S I → List (I × S.Key)
  | .run i _ =>
    match s.status i with
    | .running (.lock key _) buf =>
      if s.owner key = none ∧ (buf.view s.store.rows key).isSome then [(i, key)] else []
    | _ => []
  | .abort _ => []

/-- The locks taken along a run, in the order they were taken. -/
def System.lockOrder (tables : (q : S.Query) → S.Answer q) :
    System S I α → List (Label S I) → List (I × S.Key)
  | _, [] => []
  | s, l :: ls =>
    s.acquisitions l ++ (s.step tables l).elim [] fun t => System.lockOrder tables t ls

/-- One more step appends to the order of the locks what it acquires. -/
theorem System.lockOrder_snoc {tables : (q : S.Query) → S.Answer q} {s t : System S I α}
    {ls : List (Label S I)} (hrun : runs (System.step tables) s ls = some t) (l : Label S I) :
    System.lockOrder tables s (ls ++ [l]) = System.lockOrder tables s ls ++ t.acquisitions l := by
  induction ls generalizing s with
  | nil =>
    obtain rfl : s = t := by simpa using hrun
    cases h : s.step tables l <;> simp [System.lockOrder, h]
  | cons k ls ih =>
    rw [runs_cons, Option.bind_eq_some_iff] at hrun
    obtain ⟨u, hstep, hrest⟩ := hrun
    simp [System.lockOrder, hstep, ih hrest]

end LockOrder

section History

variable [DecidableEq S.Key] (tables : (q : S.Query) → S.Answer q) (bodies : I → Body S α)
  (init : Store S)

/-- A history of ended transactions explains what an interleaving has produced,
given the locks taken so far. -/
structure System.Explained (locks : List (I × S.Key)) (s : System S I α)
    (history : List (I × Finished S α)) : Prop where
  /-- Run one after another, the ended transactions give the committed store. -/
  serial : SerialRun tables bodies init history s.store
  nodup : (history.map Prod.fst).Nodup
  /-- The history lists exactly the results the callers got. -/
  outcome : ∀ i r, (s.status i).outcome = some r ↔ ∃ buf, (i, ⟨r, buf⟩) ∈ history
  outbox_eq : s.outbox = history.flatMap fun e => e.2.released.map fun ev => (e.1, ev)
  locks_running : ∀ i body buf, s.status i = .running body buf →
    ∀ key, (i, key) ∈ locks ↔ s.owner key = some i
  locks_ended : ∀ e ∈ history, ∀ key, (e.1, key) ∈ locks ↔ key ∈ e.2.buffers.locked
  /-- The lock of a row was taken in the order in which its takers ended, the
  present owner coming last. -/
  order : (∀ i, s.status i ≠ .aborted) → ∀ key,
    (locks.filter fun e => e.2 = key).map Prod.fst =
      (history.filter fun e => key ∈ e.2.buffers.locked).map Prod.fst ++ (s.owner key).toList

variable {tables bodies init} [DecidableEq I] {locks : List (I × S.Key)} {s : System S I α}
  {history : List (I × Finished S α)}

omit [DecidableEq I] in
/-- A running transaction is not in the history. -/
theorem System.Explained.not_mem_of_running
    (hex : s.Explained tables bodies init locks history) {i : I} {body : Body S α}
    {buf : Buffers S} (hi : s.status i = .running body buf) : i ∉ history.map Prod.fst := by
  intro hmem
  obtain ⟨⟨j, f⟩, hf, rfl⟩ := List.mem_map.mp hmem
  have h := (hex.outcome j f.result).mpr ⟨f.buffers, hf⟩
  simp [hi, Status.outcome] at h

omit [DecidableEq I] in
/-- Before any step the empty serial history explains the system. -/
theorem System.explained_start (st : Store S) (n : ℕ) :
    (System.start st n bodies).Explained tables bodies st [] [] where
  serial := .nil
  nodup := List.nodup_nil
  outcome i r := by simp [System.start, Status.outcome]
  outbox_eq := rfl
  locks_running _ _ _ _ key := by simp [System.start]
  locks_ended _ h := by simp at h
  order _ key := by simp [System.start]

/-- A statement that takes no lock and ends nothing leaves the history as it is. -/
theorem System.Explained.proceed {i : I} {body body' : Body S α} {buf buf' : Buffers S}
    (hex : s.Explained tables bodies init locks history)
    (hi : s.status i = .running body buf) :
    (s.proceed i body' buf').Explained tables bodies init locks history where
  serial := hex.serial
  nodup := hex.nodup
  outcome j r := by
    rw [← hex.outcome j r]
    by_cases hji : j = i
    · simp [hji, hi, Status.outcome]
    · rw [System.proceed_status_of_ne s hji]
  outbox_eq := hex.outbox_eq
  locks_running j b w hj := by
    by_cases hji : j = i
    · subst hji
      exact hex.locks_running j body buf hi
    · exact hex.locks_running j b w ((System.proceed_status_of_ne s hji _ _).symm.trans hj)
  locks_ended := hex.locks_ended
  order hnone := by
    refine hex.order fun j => ?_
    by_cases hji : j = i
    · simp [hji, hi]
    · rw [← System.proceed_status_of_ne s hji body' buf']
      exact hnone j

/-- Taking a free lock appends its taker to the lock order of the row. -/
theorem System.Explained.acquire {i : I} {key : S.Key} {body body' : Body S α}
    {buf buf' : Buffers S} (hex : s.Explained tables bodies init locks history)
    (hi : s.status i = .running body buf) (howner : s.owner key = none) :
    ((s.proceed i body' buf').acquire i key).Explained tables bodies init
      (locks ++ [(i, key)]) history := by
  have hnext : (s.proceed i body' buf').Explained tables bodies init locks history :=
    hex.proceed hi
  refine ⟨hnext.serial, hnext.nodup, hnext.outcome, hnext.outbox_eq, ?_, ?_, ?_⟩
  · intro j b w hj k
    have hlocks := hnext.locks_running j b w hj k
    by_cases hkey : k = key
    · subst hkey
      have hnot : (j, k) ∉ locks := by simp [hlocks, System.proceed, howner]
      simp [hnot, System.acquire, eq_comm]
    · simp [hkey, hlocks, System.acquire]
  · intro e he k
    have hei : e.1 ≠ i := by
      rintro rfl
      exact hex.not_mem_of_running hi (List.mem_map_of_mem he)
    simp [hei, hnext.locks_ended e he k]
  · intro hnone k
    have horder := hnext.order hnone k
    by_cases hkey : k = key
    · subst hkey
      simp only [System.proceed, howner, Option.toList_none, List.append_nil] at horder
      simp [horder, System.acquire]
    · have hkey' : key ≠ k := Ne.symm hkey
      simp [hkey', horder, System.acquire, Function.update_of_ne hkey]

/-- A transaction that commits or throws becomes the last of the history; the
rows it had locked are free again. -/
theorem System.Explained.ended {i : I} {body : Body S α} {buf : Buffers S} {t : System S I α}
    {f : Finished S α} (final : Status S α)
    (hinv : s.Invariant tables bodies) (hex : s.Explained tables bodies init locks history)
    (hi : s.status i = .running body buf) (hbuf : f.buffers = buf)
    (hcompletes : body.Completes tables s.store.rows buf f)
    (hfinal : final.outcome = some f.result)
    (hstore : t.store = s.store.finish f) (howner : t.owner = (s.finish i final).owner)
    (hstatus : t.status = (s.finish i final).status)
    (houtbox : t.outbox = s.outbox ++ f.released.map fun ev => (i, ev)) :
    t.Explained tables bodies init locks (history ++ [(i, f)]) := by
  have hrun := hinv.running i body buf hi
  have hnotmem := hex.not_mem_of_running hi
  have hnotrunning : ∀ b w, final ≠ .running b w := by
    rintro b w rfl
    simp [Status.outcome] at hfinal
  have hbody := hrun.replay s.store.rows (System.Agrees.refl s i) f hcompletes
  constructor
  · rw [hstore]
    exact hex.serial.snoc hbody
  · rw [List.map_append, List.map_singleton]
    refine List.nodup_append.mpr ⟨hex.nodup, List.nodup_singleton i, ?_⟩
    rintro j hj k hk rfl
    obtain rfl := List.mem_singleton.mp hk
    exact hnotmem hj
  · intro j r
    by_cases hji : j = i
    · subst hji
      rw [hstatus, System.finish_status_self, hfinal, Option.some.injEq]
      constructor
      · rintro rfl
        exact ⟨f.buffers, by simp⟩
      · rintro ⟨w, hmem⟩
        rcases List.mem_append.mp hmem with hold | hnew
        · exact absurd (List.mem_map_of_mem hold) hnotmem
        · have heq : (⟨r, w⟩ : Finished S α) = f := by simpa using hnew
          rw [← heq]
    · rw [hstatus, System.finish_status_of_ne s hji, hex.outcome j r]
      simp [hji]
  · rw [houtbox, hex.outbox_eq, List.flatMap_append]
    simp
  · intro j b w hj key
    rw [hstatus] at hj
    have hji : j ≠ i := by
      rintro rfl
      exact hnotrunning b w ((s.finish_status_self j final).symm.trans hj)
    rw [System.finish_status_of_ne s hji] at hj
    rw [howner, System.finish_owner_eq_some, hex.locks_running j b w hj key]
    exact (and_iff_left hji).symm
  · intro e he key
    rcases List.mem_append.mp he with hold | hnew
    · exact hex.locks_ended e hold key
    · obtain rfl : e = (i, f) := by simpa using hnew
      rw [hex.locks_running i body buf hi key, hbuf, hrun.mem_locked key]
  · intro hnone key
    have hnone' : ∀ j, s.status j ≠ .aborted := by
      intro j
      by_cases hji : j = i
      · simp [hji, hi]
      · rw [← System.finish_status_of_ne s hji final, ← hstatus]
        exact hnone j
    rw [hex.order hnone' key, List.filter_append, List.map_append, List.append_assoc, howner]
    congr 1
    have hmem : key ∈ f.buffers.locked ↔ s.owner key = some i := by rw [hbuf, hrun.mem_locked key]
    by_cases hkey : s.owner key = some i
    · simp [System.finish, hkey, hmem.mpr hkey]
    · simp [System.finish, hkey, mt hmem.mp hkey]

/-- An aborted transaction leaves no entry: only its locks are given back. -/
theorem System.Explained.aborted {i : I} {body : Body S α} {buf : Buffers S}
    (hex : s.Explained tables bodies init locks history) (hi : s.status i = .running body buf) :
    (s.finish i .aborted).Explained tables bodies init locks history where
  serial := hex.serial
  nodup := hex.nodup
  outcome j r := by
    rw [← hex.outcome j r]
    by_cases hji : j = i
    · simp [hji, hi, Status.outcome]
    · rw [System.finish_status_of_ne s hji]
  outbox_eq := hex.outbox_eq
  locks_running j b w hj key := by
    have hji : j ≠ i := by
      rintro rfl
      simp at hj
    rw [System.finish_status_of_ne s hji] at hj
    rw [System.finish_owner_eq_some, hex.locks_running j b w hj key]
    exact (and_iff_left hji).symm
  locks_ended := hex.locks_ended
  order hnone := absurd (s.finish_status_self i .aborted) (hnone i)

/-- Every step extends the explanation: statements keep the history, a taken
lock extends the lock order, an ended transaction extends the history. -/
theorem System.Explained.step {t : System S I α} {l : Label S I}
    (hinv : s.Invariant tables bodies) (hex : s.Explained tables bodies init locks history)
    (h : s.step tables l = some t) :
    ∃ history', t.Explained tables bodies init (locks ++ s.acquisitions l) history' := by
  cases System.step_moves h with
  | abort hi =>
    refine ⟨history, ?_⟩
    simpa [System.acquisitions] using hex.aborted hi
  | @commit i _ a buf hi =>
    refine ⟨history ++ [(i, ⟨.ok a, buf⟩)], ?_⟩
    have hended : (s.commit i a buf).Explained tables bodies init locks
        (history ++ [(i, ⟨.ok a, buf⟩)]) :=
      hex.ended (.committed a) hinv hi rfl rfl rfl rfl rfl rfl rfl
    simpa [System.acquisitions, hi] using hended
  | @throw i _ e buf hi =>
    refine ⟨history ++ [(i, ⟨.error e, buf⟩)], ?_⟩
    have hended : (s.finish i (.failed e)).Explained tables bodies init locks
        (history ++ [(i, ⟨.error e, buf⟩)]) := hex.ended (.failed e) hinv hi rfl rfl rfl rfl rfl rfl
      (by simp [System.finish, Finished.released])
    simpa [System.acquisitions, hi] using hended
  | query hi => exact ⟨history, by simpa [System.acquisitions, hi] using hex.proceed hi⟩
  | input hi => exact ⟨history, by simpa [System.acquisitions, hi] using hex.proceed hi⟩
  | update hi _ => exact ⟨history, by simpa [System.acquisitions, hi] using hex.proceed hi⟩
  | publish hi => exact ⟨history, by simpa [System.acquisitions, hi] using hex.proceed hi⟩
  | relock hi howner =>
    exact ⟨history, by simpa [System.acquisitions, hi, howner] using hex.proceed hi⟩
  | lockMissing hi _ hrow =>
    exact ⟨history, by simpa [System.acquisitions, hi, hrow] using hex.proceed hi⟩
  | lock hi howner hrow =>
    exact ⟨history, by simpa [System.acquisitions, hi, howner, hrow] using hex.acquire hi howner⟩
  | @insert i _ r next buf hi =>
    have hnext : (s.proceed i (next s.nextId) (buf.insert s.nextId r)).Explained tables bodies
        init locks history := hex.proceed hi
    refine ⟨history, ?_⟩
    simp only [System.acquisitions, hi, List.append_nil]
    exact ⟨hnext.serial, hnext.nodup, hnext.outcome, hnext.outbox_eq, hnext.locks_running,
      hnext.locks_ended, hnext.order⟩

/-- **Atomicity of interleavings.** Every run of interleaved transactions is
explained by a serial history of the transactions that ended, ordered on each
row as its locks were taken. -/
theorem System.exists_explained {st : Store S} {n : ℕ} {ls : List (Label S I)}
    (hrun : runs (System.step tables) (System.start st n bodies) ls = some s) :
    s.Invariant tables bodies ∧ ∃ history,
      s.Explained tables bodies st
        (System.lockOrder tables (System.start st n bodies) ls) history := by
  refine runs_induction (P := fun ls s => s.Invariant tables bodies ∧ ∃ history,
    s.Explained tables bodies st (System.lockOrder tables (System.start st n bodies) ls) history)
    ⟨System.invariant_start tables bodies st n, [], System.explained_start st n⟩ ?_ hrun
  rintro ls s l t hprefix ⟨hinv, history, hex⟩ hstep
  obtain ⟨history', hex'⟩ := hex.step hinv hstep
  refine ⟨hinv.step hstep, history', ?_⟩
  rwa [System.lockOrder_snoc hprefix]

end History

end CoffeeOrder.Kit
