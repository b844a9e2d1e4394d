import CoffeeOrder.Shop.Deliveries

/-!
# When reads agree with MySQL

The instances share Redis, but each keeps its own stale flag, and no instance
checks whether Redis has every order. So a read agrees with
`OrderRepository.findPopularMenus` only under conditions on what Redis has
recorded: the theorems state them exactly, for every reachable state of several
instances with failing `ZADD`s and restarts, and for a start with old orders and an
empty Redis that never fails.
-/

namespace CoffeeOrder.Shop

open Kit

/-- A committed database, with the next identifier it will generate. -/
structure Snapshot where
  store : Store schema
  nextId : ℕ
  /-- The primary key of `orders`. -/
  orders_nodup : ((ordersTable store).map Prod.fst).Nodup
  orders_lt : ∀ o ∈ ordersTable store, o.1 < nextId

/-- The application over a database, with an empty Redis. -/
def Snapshot.start {Inst I : Type} (db : Snapshot) (d : Deployment Inst I) : Cluster Inst I :=
  Cluster.start d db.store db.nextId

/-- A read at `now` on an instance, without Redis failures, returns what
`OrderRepository.findPopularMenus` returns for the same window. -/
def Cluster.ReadAgrees {Inst I : Type} [DecidableEq Inst] (d : Deployment Inst I)
    (s : Cluster Inst I) (inst : Inst) (now : Instant) : Prop :=
  (s.getPopularMenus d inst now fun _ => none).1 =
    .ok (PopularMenuService.getFromDatabase d.menus (ordersTable s.db.store) (windowFrom now)
      (windowTo now))

section Sound

variable {Inst I : Type} [DecidableEq Inst] [DecidableEq I] {d : Deployment Inst I}
  {db : Snapshot} {s : Cluster Inst I}

/-- In every reachable state Redis is sound: it never counts an order that MySQL does
not count, or counts one twice. -/
theorem Cluster.redisSound (h : Reachable (Cluster.step d) (db.start d) s) :
    RedisSound (ordersTable s.db.store) s.redis := by
  obtain ⟨paid, hpaid⟩ := exists_paid (Cluster.reachable_db h)
  obtain ⟨hredis, -⟩ := Cluster.deliveries h
  refine ⟨?_, hredis.members_nodup, fun menuId e he => ?_⟩
  · rw [hpaid.orders_eq, List.map_append]
    refine List.nodup_append.mpr ⟨db.orders_nodup, hpaid.nodup, ?_⟩
    rintro id hid id' hid' rfl
    obtain ⟨o, ho, rfl⟩ := List.mem_map.mp hid
    obtain ⟨o', ho', hsame⟩ := List.mem_map.mp hid'
    have hold := db.orders_lt o ho
    have hnew := hpaid.fresh o' ho'
    omega
  · obtain ⟨event, hevent, hid, hmenu, hscore⟩ := hredis.member_paid menuId e he
    rw [Cluster.paidEvents, hpaid.outbox_eq] at hevent
    obtain ⟨o, ho, rfl⟩ := List.mem_map.mp hevent
    refine ⟨o.2, ?_, hmenu, hpaid.exact o ho, hscore⟩
    rw [hpaid.orders_eq, ← hid]
    exact List.mem_append_right _ ho

/-- **Reads of several instances.** In every state that any run of orders, failing
`ZADD`s, restarts and reads leads to, a read on an instance agrees with MySQL
exactly if the flag of that instance is set, or Redis has recorded no order of the
window, or it has recorded every order of the window for MySQL's top three menus. -/
theorem read_agrees_with_database_iff (d : Deployment Inst I) (db : Snapshot)
    {s : Cluster Inst I} (h : Reachable (Cluster.step d) (db.start d) s) (inst : Inst)
    (now : Instant) :
    s.ReadAgrees d inst now ↔
      s.readModelStale inst = true ∨
      (∀ menu ∈ d.menus.rows, ∀ o ∈ ordersTable s.db.store, CountedFor now menu o →
        ¬Recorded s.redis o) ∨
      ∀ menu ∈ d.menus.rows, TopThree d.menus (ordersTable s.db.store) now menu →
        ∀ o ∈ ordersTable s.db.store, CountedFor now menu o → Recorded s.redis o :=
  read_agrees_iff now (Cluster.redisSound h)

end Sound

section TwoInstances

/-- Two menus, two instances and one order on each. -/
def twoOrders : Deployment Bool Bool where
  menus := ⟨[⟨1, "아메리카노", 4500⟩, ⟨2, "카페라떼", 5000⟩], by decide⟩
  requests i := if i then .order 2 2 else .order 1 1
  home := id
  poolSize := 8
  partitionFor _ := 0

/-- Two users with enough points, and no orders. -/
def twoUsers : Snapshot where
  store := ⟨fun userId => if userId = 1 ∨ userId = 2 then some 10000 else none, []⟩
  nextId := 1
  orders_nodup := by decide
  orders_lt := by decide

/-- All statements of one request's transaction, at one time. -/
def serveAll (i : Bool) : List (Action Bool Bool) := List.replicate 8 (.db (.run i default))

/-- A second after the orders. -/
def aSecondLater : Instant :=
  { (default : Instant) with epochSecond := 1, epochSecond_lt := by decide }

/-- The first order's `ZADD` fails on its instance, the second order is recorded by
the other instance, which then answers a read from Redis alone. -/
def failedZaddRun : List (Action Bool Bool) :=
  serveAll false ++ [.record 0 (.raised false (.DataAccessException "timeout"))] ++
    serveAll true ++ [.record 0 .ok]

/-- Starting without orders, reads between orders need not agree with MySQL. -/
theorem not_reads_agree :
    ¬∀ (d : Deployment Bool Bool) (db : Snapshot) (s : Cluster Bool Bool),
      ordersTable db.store = [] → Reachable (Cluster.step d) (db.start d) s → s.recording = [] →
      ∀ inst now, s.ReadAgrees d inst now := by
  intro h
  obtain ⟨s, hrun, htest⟩ := exists_of_any_runs (Cluster.step twoOrders)
    (twoUsers.start twoOrders) failedZaddRun
    (fun s => s.recording.isEmpty &&
      match (s.getPopularMenus twoOrders true aSecondLater fun _ => none).1 with
      | .ok menus => menus != PopularMenuService.getFromDatabase twoOrders.menus
          (ordersTable s.db.store) (windowFrom aSecondLater) (windowTo aSecondLater)
      | .error _ => true) (by decide +kernel)
  simp only [Bool.and_eq_true, List.isEmpty_iff] at htest
  have hagree := h twoOrders twoUsers s rfl ⟨_, hrun⟩ htest.1 true aSecondLater
  rw [Cluster.ReadAgrees] at hagree
  simp [hagree] at htest

/-- After the first order was recorded, the other instance agrees with MySQL. -/
theorem read_agrees_with_database_iff_recorded :
    ∃ s, runs (Cluster.step twoOrders) (twoUsers.start twoOrders)
        (serveAll false ++ [.record 0 .ok]) = some s ∧
      s.ReadAgrees twoOrders true aSecondLater := by
  obtain ⟨s, hrun, htest⟩ := exists_of_any_runs (Cluster.step twoOrders)
    (twoUsers.start twoOrders) (serveAll false ++ [.record 0 .ok])
    (fun s => (ordersTable s.db.store).all fun o => Recorded s.redis o)
    (by decide +kernel)
  simp only [List.all_eq_true, decide_eq_true_eq] at htest
  refine ⟨s, hrun, ?_⟩
  exact (read_agrees_with_database_iff twoOrders twoUsers ⟨_, hrun⟩ true aSecondLater).mpr
    (.inr (.inr fun _ _ _ o ho _ => htest o ho))

end TwoInstances

section ColdStart

/-- Redis answers every command of this step, and no instance restarts. -/
def Action.Healthy {Inst I : Type} : Action Inst I → Prop
  | .record _ (.raised _ _) => False
  | .read _ _ raised => ∀ menuId, raised menuId = none
  | .restart _ => False
  | _ => True

/-- As long as Redis answers, no flag is set, and every order placed since the start
is recorded once its listener has run. -/
structure Cluster.AllRecorded {Inst I : Type} (s : Cluster Inst I) : Prop where
  not_stale : ∀ inst, s.readModelStale inst = false
  recorded : ∀ event ∈ s.paidEvents, (∃ inst, (inst, event) ∈ s.recording) ∨
    event.orderId ∈ (s.redis event.menuId).map Prod.fst

variable {Inst I : Type} [DecidableEq Inst] [DecidableEq I] {d : Deployment Inst I}
  {db : Snapshot} {s t : Cluster Inst I}

/-- As long as Redis answers, a step loses no order. -/
theorem Cluster.AllRecorded.step {a : Action Inst I} (h : s.AllRecorded) (ha : a.Healthy)
    (hstep : s.step d a = some t) : t.AllRecorded := by
  cases a with
  | db l =>
    obtain ⟨database, hdb, rfl⟩ := Option.map_eq_some_iff.mp hstep
    obtain ⟨released, hpaid, hrecording, -⟩ := Cluster.advance_spec (d := d) hdb
    refine ⟨h.not_stale, fun event hevent => ?_⟩
    rw [hpaid, List.mem_append] at hevent
    rw [hrecording]
    rcases hevent with hold | hnew
    · rcases h.recorded event hold with ⟨inst, hmem⟩ | hmem
      · exact .inl ⟨inst, List.mem_append_left _ hmem⟩
      · exact .inr hmem
    · obtain ⟨e, he, rfl⟩ := List.mem_map.mp hnew
      exact .inl ⟨e.1, List.mem_append_right _ he⟩
  | record k reply =>
    cases reply with
    | raised => exact ha.elim
    | ok =>
      obtain ⟨e, he, rfl⟩ := Option.map_eq_some_iff.mp hstep
      simp only [recordAfterCommit_exec, Cluster.setCounterState, Cluster.counterState]
      refine ⟨fun inst => ?_, fun event hevent => ?_⟩
      · have hsame : Function.update s.readModelStale e.1 (s.readModelStale e.1) inst =
            s.readModelStale inst := by rw [Function.update_eq_self]
        exact hsame.trans (h.not_stale inst)
      · have hzadd : ∀ id, (∃ score, (id, score) ∈ s.redis event.menuId) →
            id ∈ (zaddOrder s.redis e.2 event.menuId).map Prod.fst := by
          rintro id ⟨score, hmem⟩
          by_cases hid : event.menuId = e.2.menuId ∧ id = e.2.orderId
          · exact List.mem_map.mpr ⟨_, mem_zaddOrder.mpr (.inl ⟨hid.1, rfl⟩), hid.2.symm⟩
          · exact List.mem_map.mpr ⟨(id, score),
              mem_zaddOrder.mpr (.inr ⟨hmem, fun hmenu hsame => hid ⟨hmenu, hsame⟩⟩), rfl⟩
        rcases h.recorded event hevent with ⟨inst, hmem⟩ | hmem
        · rcases List.mem_cons.mp ((perm_cons_eraseIdx he).subset hmem) with hsame | hrest
          · refine .inr (List.mem_map.mpr ⟨_, mem_zaddOrder.mpr (.inl ⟨?_, rfl⟩), ?_⟩)
            · exact congrArg (fun e => e.2.menuId) hsame
            · exact (congrArg (fun e => e.2.orderId) hsame).symm
          · exact .inl ⟨inst, hrest⟩
        · obtain ⟨member, hmember, hid⟩ := List.mem_map.mp hmem
          exact .inr (hzadd _ ⟨member.2, hid ▸ hmember⟩)
  | submit k | send k reply | settle k appended =>
    obtain ⟨e, -, rfl⟩ := Option.map_eq_some_iff.mp hstep
    exact ⟨h.not_stale, h.recorded⟩
  | start inst =>
    obtain ⟨-, hfind⟩ := Option.ite_none_right_eq_some.mp hstep
    obtain ⟨e, -, rfl⟩ := Option.map_eq_some_iff.mp hfind
    exact ⟨h.not_stale, h.recorded⟩
  | restart inst => exact ha.elim
  | read inst now raised =>
    obtain rfl := Option.some.inj hstep
    obtain rfl : raised = fun _ => none := funext ha
    have hcounter : (s.getPopularMenus d inst now fun _ => none).2 = s.counterState inst := by
      rw [Cluster.getPopularMenus, getPopularMenus_exec]
    rw [hcounter]
    have hsame : s.setCounterState inst (s.counterState inst) = s := by
      simp [Cluster.setCounterState, Cluster.counterState]
    rw [hsame]
    exact h

/-- After a run in which Redis always answers, no order is lost. -/
theorem Cluster.allRecorded {ls : List (Action Inst I)} (hls : ∀ a ∈ ls, a.Healthy)
    (hrun : runs (Cluster.step d) (db.start d) ls = some s) : s.AllRecorded := by
  have hmeets : StepsMeet (Cluster.step d) (fun _ a => a.Healthy) (db.start d) ls :=
    .of_forall hls
  refine invariant_of_stepsMeet hmeets hrun ⟨fun _ => rfl, ?_⟩
    fun _ _ _ h ha hstep => h.step ha hstep
  simp [Snapshot.start, Cluster.start, Cluster.paidEvents, System.start]

/-- Between orders, exactly the orders placed since the start are recorded. -/
theorem Cluster.recorded_iff {ls : List (Action Inst I)} (hls : ∀ a ∈ ls, a.Healthy)
    (hrun : runs (Cluster.step d) (db.start d) ls = some s) (hquiet : s.recording = []) :
    ∀ o ∈ ordersTable s.db.store, Recorded s.redis o ↔ o ∉ ordersTable db.store := by
  have hreach : Reachable (Cluster.step d) (db.start d) s := ⟨ls, hrun⟩
  obtain ⟨paid, hpaid⟩ := exists_paid (Cluster.reachable_db hreach)
  obtain ⟨hredis, -⟩ := Cluster.deliveries hreach
  have hall := Cluster.allRecorded hls hrun
  intro o ho
  constructor
  · intro hrecorded hold
    obtain ⟨e, he, hid⟩ := List.mem_map.mp hrecorded
    obtain ⟨event, hevent, hevId, -⟩ := hredis.member_paid _ e he
    rw [Cluster.paidEvents, hpaid.outbox_eq] at hevent
    obtain ⟨o', ho', rfl⟩ := List.mem_map.mp hevent
    have hfresh := hpaid.fresh o' ho'
    have hlt := db.orders_lt o hold
    have hsame : o'.1 = e.1 := hevId
    omega
  · intro hnew
    rw [hpaid.orders_eq, List.mem_append] at ho
    have hevent : paidEvent o ∈ s.paidEvents := by
      rw [Cluster.paidEvents, hpaid.outbox_eq]
      exact List.mem_map_of_mem (ho.resolve_left hnew)
    rcases hall.recorded _ hevent with ⟨inst, hmem⟩ | hmem
    · simp [hquiet] at hmem
    · exact hmem

/-- **Reads after a cold start.** Start with any committed orders and an empty Redis
that never fails. Between orders, a read agrees with MySQL exactly if no order placed
since then is in the window, or no older order of the window belongs to one of
MySQL's top three menus. -/
theorem cold_start_read_agrees_iff (d : Deployment Inst I) (db : Snapshot)
    {ls : List (Action Inst I)} (hls : ∀ a ∈ ls, a.Healthy) {s : Cluster Inst I}
    (hrun : runs (Cluster.step d) (db.start d) ls = some s) (hquiet : s.recording = [])
    (inst : Inst) (now : Instant) :
    s.ReadAgrees d inst now ↔
      (∀ menu ∈ d.menus.rows, ∀ o ∈ ordersTable s.db.store, o ∉ ordersTable db.store →
        ¬CountedFor now menu o) ∨
      ∀ menu ∈ d.menus.rows, TopThree d.menus (ordersTable s.db.store) now menu →
        ∀ o ∈ ordersTable db.store, ¬CountedFor now menu o := by
  have hreach : Reachable (Cluster.step d) (db.start d) s := ⟨ls, hrun⟩
  have hrecorded := Cluster.recorded_iff hls hrun hquiet
  have hold : ∀ o ∈ ordersTable db.store, o ∈ ordersTable s.db.store := by
    obtain ⟨paid, hpaid⟩ := exists_paid (Cluster.reachable_db hreach)
    exact fun o ho => hpaid.orders_eq ▸ List.mem_append_left _ ho
  refine (read_agrees_iff now (Cluster.redisSound hreach)).trans ?_
  have hfresh : (s.counterState inst).readModelStale = false :=
    (Cluster.allRecorded hls hrun).not_stale inst
  rw [hfresh, or_iff_right (by simp)]
  refine or_congr ?_ ?_
  · refine forall₂_congr fun menu _ => forall₂_congr fun o ho => ?_
    have := hrecorded o ho
    tauto
  · refine forall₃_congr fun menu _ _ => ?_
    constructor
    · intro h o ho hcounted
      exact (hrecorded o (hold o ho)).mp (h o (hold o ho) hcounted) ho
    · intro h o ho hcounted
      exact (hrecorded o ho).mpr fun ho' => h o ho' hcounted

/-- One instance that serves one order. -/
def oneOrder : Deployment Unit Unit where
  menus := twoOrders.menus
  requests _ := .order 2 2
  home := id
  poolSize := 8
  partitionFor _ := 0

/-- A database with an order of the other menu, placed at the given time. -/
def oldOrder (createdAt : LocalDateTime) : Snapshot where
  store := ⟨twoUsers.store.rows, [(1, .order ⟨1, 1, 4500, createdAt⟩)]⟩
  nextId := 2
  orders_nodup := List.nodup_singleton 1
  orders_lt o ho := by
    obtain rfl : o = _ := List.mem_singleton.mp ho
    exact Nat.lt_succ_self 1

/-- The order is placed and recorded. -/
def recordedRun : List (Action Unit Unit) :=
  List.replicate 8 (.db (.run () default)) ++ [.record 0 .ok]

/-- In that run Redis always answers. -/
theorem recordedRun_healthy : ∀ a ∈ recordedRun, a.Healthy := by
  intro a ha
  rcases List.mem_append.mp ha with ha | ha
  · obtain rfl := List.eq_of_mem_replicate ha
    trivial
  · obtain rfl := List.mem_singleton.mp ha
    trivial

/-- After a cold start, the first order hides the older ones. -/
theorem not_cold_start_read_agrees :
    ¬∀ (d : Deployment Unit Unit) (db : Snapshot) (ls : List (Action Unit Unit))
      (s : Cluster Unit Unit), (∀ a ∈ ls, a.Healthy) →
      runs (Cluster.step d) (db.start d) ls = some s → s.recording = [] →
      ∀ inst now, s.ReadAgrees d inst now := by
  intro h
  obtain ⟨s, hrun, htest⟩ := exists_of_any_runs (Cluster.step oneOrder)
    ((oldOrder ⟨0⟩).start oneOrder) recordedRun
    (fun s => s.recording.isEmpty &&
      match (s.getPopularMenus oneOrder () aSecondLater fun _ => none).1 with
      | .ok menus => menus != PopularMenuService.getFromDatabase oneOrder.menus
          (ordersTable s.db.store) (windowFrom aSecondLater) (windowTo aSecondLater)
      | .error _ => true) (by decide +kernel)
  simp only [Bool.and_eq_true, List.isEmpty_iff] at htest
  have hagree := h oneOrder (oldOrder ⟨0⟩) recordedRun s recordedRun_healthy hrun htest.1 ()
    aSecondLater
  rw [Cluster.ReadAgrees] at hagree
  simp [hagree] at htest

/-- An older order does no harm once it has left the window. -/
theorem cold_start_read_agrees_expired :
    ∃ s, runs (Cluster.step oneOrder) ((oldOrder ⟨-1000000000000⟩).start oneOrder) recordedRun =
        some s ∧ s.ReadAgrees oneOrder () aSecondLater := by
  obtain ⟨s, hrun, htest⟩ := exists_of_any_runs (Cluster.step oneOrder)
    ((oldOrder ⟨-1000000000000⟩).start oneOrder) recordedRun
    (fun s => s.recording.isEmpty) (by decide +kernel)
  refine ⟨s, hrun, ?_⟩
  refine (cold_start_read_agrees_iff oneOrder (oldOrder ⟨-1000000000000⟩) recordedRun_healthy hrun
    (List.isEmpty_iff.mp htest) () aSecondLater).mpr (.inr fun menu _ _ o ho hcounted => ?_)
  obtain rfl : o = _ := List.mem_singleton.mp ho
  exact absurd hcounted.1 (by decide)

end ColdStart

end CoffeeOrder.Shop
