import CoffeeOrder.Shop.ReadAgreement

/-!
# The stale flag of a single instance

An instance through which all orders pass notices every failed `ZADD`. Its flag then
stays set, so either it reads from MySQL, or Redis has every order that the instance
has finished with.
-/

namespace CoffeeOrder.Shop

open Kit

section Step

variable {Inst I : Type} [DecidableEq Inst] [DecidableEq I] {d : Deployment Inst I}
  {s t : Cluster Inst I} {a : Action Inst I}

/-- The steps in which Redis may fail. -/
inductive Action.Fails : Action Inst I → Prop
  | record (k : ℕ) (applied : Bool) (exception : Throwable) :
    Fails (.record k (.raised applied exception))
  | read (inst : Inst) (now : Instant) (raised : Long → Option Throwable) :
    Fails (.read inst now raised)

omit [DecidableEq Inst] [DecidableEq I] in
/-- A step other than a restart is healthy unless Redis may fail in it. -/
theorem Action.healthy_or_fails (h : ∀ inst, a ≠ .restart inst) : a.Healthy ∨ a.Fails := by
  cases a with
  | record k reply =>
    cases reply with
    | ok => exact .inl trivial
    | raised applied exception => exact .inr (.record k applied exception)
  | read inst now raised => exact .inr (.read inst now raised)
  | restart inst => exact absurd rfl (h inst)
  | db | submit | start | send | settle => exact .inl trivial

/-- Only a restart clears the flag of an instance. -/
theorem Cluster.readModelStale_step {inst : Inst} (h : s.readModelStale inst = true)
    (ha : a ≠ .restart inst) (hstep : s.step d a = some t) : t.readModelStale inst = true := by
  cases a with
  | db l =>
    obtain ⟨db, -, rfl⟩ := Option.map_eq_some_iff.mp hstep
    exact h
  | record k reply =>
    obtain ⟨e, -, rfl⟩ := Option.map_eq_some_iff.mp hstep
    simp only [recordAfterCommit_exec, Cluster.setCounterState, Cluster.counterState]
    by_cases hinst : inst = e.1
    · subst hinst
      rw [Function.update_self]
      rcases reply with _ | ⟨_ | _, _⟩
      · exact h
      · rfl
      · rfl
    · rwa [Function.update_of_ne hinst]
  | submit k | send k reply | settle k appended =>
    obtain ⟨e, -, rfl⟩ := Option.map_eq_some_iff.mp hstep
    exact h
  | start inst' =>
    obtain ⟨-, hfind⟩ := Option.ite_none_right_eq_some.mp hstep
    obtain ⟨e, -, rfl⟩ := Option.map_eq_some_iff.mp hfind
    exact h
  | restart inst' =>
    obtain rfl := Option.some.inj hstep
    have hne : inst ≠ inst' := fun hsame => ha (hsame ▸ rfl)
    exact (Function.update_of_ne hne _ _).trans h
  | read inst' now raised =>
    obtain rfl := Option.some.inj hstep
    simp only [Cluster.setCounterState]
    by_cases hinst : inst = inst'
    · subst hinst
      rw [Function.update_self, Cluster.getPopularMenus]
      rcases getPopularMenus_raised d.menus (ordersTable s.db.store) (s.counterState inst) raised
        now with hsame | hfallback
      · rw [hsame, getPopularMenus_exec]
        exact h
      · rw [hfallback]
    · rwa [Function.update_of_ne hinst]

end Step

section OneInstance

variable {I : Type} [DecidableEq I] {d : Deployment Unit I} {db : Snapshot} {s t : Cluster Unit I}

/-- The flag is set, or Redis has every order whose listener has run. -/
def Cluster.Latched (s : Cluster Unit I) : Prop := s.readModelStale () = true ∨ s.AllRecorded

/-- Every step of the one instance except a restart keeps the latch. -/
theorem Cluster.Latched.step {a : Action Unit I} (h : s.Latched) (ha : a ≠ .restart ())
    (hstep : s.step d a = some t) : t.Latched := by
  rcases h with hstale | hrecorded
  · exact .inl (Cluster.readModelStale_step hstale ha hstep)
  rcases Action.healthy_or_fails fun _ => ha with hhealthy | hfails
  · exact .inr (hrecorded.step hhealthy hstep)
  cases hfails with
  | record k applied exception =>
    obtain ⟨e, -, rfl⟩ := Option.map_eq_some_iff.mp hstep
    simp only [recordAfterCommit_exec, Cluster.setCounterState, Cluster.counterState]
    have hset : Function.update s.readModelStale e.1 true () = true :=
      Function.update_self () true s.readModelStale
    cases applied with
    | true => exact .inl hset
    | false => exact .inl hset
  | read inst now raised =>
    rcases getPopularMenus_raised d.menus (ordersTable s.db.store) (s.counterState inst) raised now
      with hsame | hfallback
    · -- The failures were not noticed: the read is one without failures.
      refine .inr (hrecorded.step (d := d) (a := .read inst now fun _ => none) (fun _ => rfl) ?_)
      rw [← hstep]
      simp only [Cluster.step, Cluster.getPopularMenus, hsame]
    · obtain rfl := Option.some.inj hstep
      simp only [Cluster.getPopularMenus, hfallback, Cluster.setCounterState]
      exact .inl (Function.update_self () true s.readModelStale)

/-- In every run without a restart the flag is set, or Redis has every order. -/
theorem Cluster.latched {ls : List (Action Unit I)} (hls : ∀ a ∈ ls, a ≠ .restart ())
    (hrun : runs (Cluster.step d) (db.start d) ls = some s) : s.Latched := by
  have hmeets : StepsMeet (Cluster.step d) (fun _ a => a ≠ .restart ()) (db.start d) ls :=
    .of_forall hls
  refine invariant_of_stepsMeet hmeets hrun (.inr ⟨fun _ => rfl, ?_⟩)
    fun _ _ _ h ha hstep => h.step ha hstep
  simp [Snapshot.start, Cluster.start, Cluster.paidEvents, System.start]

/-- Between orders, Redis has every order if the flag is not set. -/
theorem Cluster.recorded_of_not_stale {ls : List (Action Unit I)}
    (hempty : ordersTable db.store = []) (hls : ∀ a ∈ ls, a ≠ .restart ())
    (hrun : runs (Cluster.step d) (db.start d) ls = some s) (hquiet : s.recording = [])
    (hfresh : s.readModelStale () = false) : ∀ o ∈ ordersTable s.db.store, Recorded s.redis o := by
  obtain ⟨paid, hpaid⟩ := exists_paid (Cluster.reachable_db ⟨ls, hrun⟩)
  have hrecorded : s.AllRecorded :=
    (Cluster.latched hls hrun).resolve_left (by rw [hfresh]; exact Bool.false_ne_true)
  intro o ho
  rw [hpaid.orders_eq, hempty, List.nil_append] at ho
  have hevent : paidEvent o ∈ s.paidEvents := by
    rw [Cluster.paidEvents, hpaid.outbox_eq]
    exact List.mem_map_of_mem ho
  rcases hrecorded.recorded _ hevent with ⟨inst, hmem⟩ | hmem
  · rw [hquiet] at hmem
    exact absurd hmem List.not_mem_nil
  · exact hmem

/-- **The stale flag is sound.** Start one instance without orders and with an empty Redis,
and let all orders pass through it. As long as it does not restart, a read between orders
returns what MySQL returns, whatever Redis commands fail before or during the read. -/
theorem stale_flag_sound (d : Deployment Unit I) (db : Snapshot)
    (hempty : ordersTable db.store = []) {ls : List (Action Unit I)}
    (hls : ∀ a ∈ ls, a ≠ .restart ()) {s : Cluster Unit I}
    (hrun : runs (Cluster.step d) (db.start d) ls = some s) (hquiet : s.recording = [])
    (now : Instant) (raised : Long → Option Throwable) :
    (s.getPopularMenus d () now raised).1 =
      .ok (PopularMenuService.getFromDatabase d.menus (ordersTable s.db.store) (windowFrom now)
        (windowTo now)) := by
  have hreach : Reachable (Cluster.step d) (db.start d) s := ⟨ls, hrun⟩
  rw [Cluster.getPopularMenus]
  rcases getPopularMenus_raised d.menus (ordersTable s.db.store) (s.counterState ()) raised now
    with hsame | hfallback
  · rw [hsame]
    refine (read_agrees_iff now (Cluster.redisSound hreach)).mpr ?_
    cases hstale : s.readModelStale () with
    | true => exact .inl hstale
    | false =>
      exact .inr (.inr fun _ _ _ o ho _ =>
        Cluster.recorded_of_not_stale hempty hls hrun hquiet hstale o ho)
  · rw [hfallback]

/-- The order is placed, and its `ZADD` raises without being applied. -/
def unrecordedRun : List (Action Unit Unit) :=
  List.replicate 8 (.db (.run () default)) ++
    [.record 0 (.raised false (.DataAccessException "timeout"))]

/-- After a failed `ZADD` the instance reads from MySQL. -/
theorem stale_flag_sound_failed_zadd :
    ∃ s, runs (Cluster.step oneOrder) (twoUsers.start oneOrder) unrecordedRun = some s ∧
      (ordersTable s.db.store).length = 1 ∧
      (s.getPopularMenus oneOrder () aSecondLater fun _ => none).1 =
        .ok (PopularMenuService.getFromDatabase oneOrder.menus (ordersTable s.db.store)
          (windowFrom aSecondLater) (windowTo aSecondLater)) := by
  obtain ⟨s, hrun, htest⟩ := exists_of_any_runs (Cluster.step oneOrder)
    (twoUsers.start oneOrder) unrecordedRun
    (fun s => s.recording.isEmpty && (ordersTable s.db.store).length == 1) (by decide +kernel)
  simp only [Bool.and_eq_true, List.isEmpty_iff, beq_iff_eq] at htest
  refine ⟨s, hrun, htest.2, ?_⟩
  refine stale_flag_sound oneOrder twoUsers rfl (fun a ha => ?_) hrun htest.1 aSecondLater _
  rcases List.mem_append.mp ha with ha | ha
  · obtain rfl := List.eq_of_mem_replicate ha
    nofun
  · obtain rfl := List.mem_singleton.mp ha
    nofun

end OneInstance

end CoffeeOrder.Shop
