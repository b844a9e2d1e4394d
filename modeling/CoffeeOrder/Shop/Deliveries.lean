import CoffeeOrder.Shop.Cluster

/-!
# What the after-commit listeners leave behind

Invariants of whole runs of the application: every member in Redis, every message
on its way and every record in the topic belongs to a paid order, each order at
most once in each place.
-/

namespace CoffeeOrder.Shop

open Kit
open scoped List

section Runs

variable {Inst I : Type} {d : Deployment Inst I} {s t : Cluster Inst I}

/-- Members and scores after `ZADD`. -/
theorem mem_zaddOrder {redis : ZSets} {event : OrderPaidEvent} {menuId : Long} {e : ℕ × ℤ} :
    e ∈ zaddOrder redis event menuId ↔
      (menuId = event.menuId ∧ e = (event.orderId,
        doubleOfLong (PopularMenuRedisCounter.toEpochMicros event.orderedAt))) ∨
      (e ∈ redis menuId ∧ (menuId = event.menuId → e.1 ≠ event.orderId)) := by
  by_cases hmenu : menuId = event.menuId
  · subst hmenu
    simp [zaddOrder, zadd, or_comm]
  · simp [zaddOrder, hmenu]

/-- Recording an order adds its member at most once. -/
theorem nodup_zaddOrder {redis : ZSets} (h : ∀ menuId, ((redis menuId).map Prod.fst).Nodup)
    (event : OrderPaidEvent) (menuId : Long) :
    ((zaddOrder redis event menuId).map Prod.fst).Nodup := by
  by_cases hmenu : menuId = event.menuId
  · subst hmenu
    simp only [zaddOrder, Function.update_self, zadd, List.map_append, List.map_singleton]
    refine List.nodup_append.mpr
      ⟨(h event.menuId).sublist (List.filter_sublist.map _), List.nodup_singleton _, ?_⟩
    rintro id hid id' hid' rfl
    obtain ⟨e, he, rfl⟩ := List.mem_map.mp hid
    exact of_decide_eq_true (List.mem_filter.mp he).2 (List.mem_singleton.mp hid')
  · simpa [zaddOrder, hmenu] using h menuId

/-- Redis holds only paid orders, each once in the set of its menu, and the pending
Redis listeners are those of paid orders. -/
structure Cluster.RedisPaid (s : Cluster Inst I) : Prop where
  recording_paid : ∀ e ∈ s.recording, e.2 ∈ s.paidEvents
  members_nodup : ∀ menuId, ((s.redis menuId).map Prod.fst).Nodup
  member_paid : ∀ menuId, ∀ e ∈ s.redis menuId, ∃ event ∈ s.paidEvents,
    event.orderId = e.1 ∧ event.menuId = menuId ∧
      e.2 = doubleOfLong (PopularMenuRedisCounter.toEpochMicros event.orderedAt)

/-- The orders whose messages are still on their way to Kafka. -/
def Cluster.onTheWay (s : Cluster Inst I) : List OrderPaidEvent :=
  (s.submitting ++ s.queue ++ s.sending).map Prod.snd ++
    s.broker.unacknowledged.map TopicRecord.order

/-- The order whose record a step appends to the topic, if it does. -/
def Cluster.appends (s : Cluster Inst I) : Action Inst I → Option OrderPaidEvent
  | .send k .acknowledged => s.sending[k]?.map Prod.snd
  | .settle k true => s.broker.unacknowledged[k]?.map TopicRecord.order
  | _ => none

/-- Messages on their way and in the topic are those of paid orders, each at most
once, and each in the partition of its user. -/
structure Cluster.SendsPaid (d : Deployment Inst I) (s : Cluster Inst I) : Prop where
  unacknowledged_record : ∀ r ∈ s.broker.unacknowledged, r = recordOf r.order
  way_paid : ∀ event ∈ s.onTheWay, event ∈ s.paidEvents
  way_nodup : s.onTheWay.Nodup
  record_paid : ∀ p, ∀ r ∈ s.broker.topic p, r = recordOf r.order ∧
    p = partitionOf d.partitionFor r.order ∧ r.order ∈ s.paidEvents ∧ r.order ∉ s.onTheWay
  topic_nodup : ∀ p, ((s.broker.topic p).map TopicRecord.order).Nodup

section Advance

variable [DecidableEq I]

/-- A database step adds its released events to the paid ones and to both listeners. -/
theorem Cluster.advance_spec {l : Label schema I} {db : System schema I Response}
    (h : s.db.step d.menus.findById l = some db) :
    ∃ released : List (Inst × OrderPaidEvent),
      (s.advance d db).paidEvents = s.paidEvents ++ released.map Prod.snd ∧
      (s.advance d db).recording = s.recording ++ released ∧
      (s.advance d db).submitting = s.submitting ++ released := by
  obtain ⟨released, hout⟩ := System.step_outbox h
  refine ⟨released.map fun e => (d.home e.1, e.2), ?_, ?_, ?_⟩
  · simp [Cluster.paidEvents, Cluster.advance, hout, Function.comp_def]
  · simp [Cluster.advance, hout]
  · simp [Cluster.advance, hout]

end Advance

section Way

/-- Taking an element out of a list. -/
theorem perm_cons_eraseIdx {α : Type} {l : List α} {k : ℕ} {a : α} (h : l[k]? = some a) :
    l.Perm (a :: l.eraseIdx k) := by
  obtain ⟨hk, rfl⟩ := List.getElem?_eq_some_iff.mp h
  rw [List.eraseIdx_eq_take_drop_succ]
  calc l = l.take k ++ l[k] :: l.drop (k + 1) := by
        rw [List.getElem_cons_drop, List.take_append_drop]
    _ ~ l[k] :: (l.take k ++ l.drop (k + 1)) := List.perm_middle

/-- Taking the first element out of a list that satisfies a condition. -/
theorem perm_cons_eraseP {α : Type} {l : List α} {p : α → Bool} {a : α} (h : l.find? p = some a) :
    l.Perm (a :: l.eraseP p) := by
  obtain ⟨hp, pre, post, rfl, hpre⟩ := List.find?_eq_some_iff_append.mp h
  rw [List.eraseP_append_right (a :: post) fun b hb => by simpa using hpre b hb,
    List.eraseP_cons_of_pos hp]
  exact List.perm_middle

/-- The events that a commit releases are on their way. -/
theorem Cluster.way_advance {db : System schema I Response}
    {released : List (Inst × OrderPaidEvent)}
    (hsubmitting : (s.advance d db).submitting = s.submitting ++ released) :
    (s.advance d db).onTheWay ~ s.onTheWay ++ released.map Prod.snd := by
  have hway : (s.advance d db).onTheWay =
      (s.submitting ++ released ++ s.queue ++ s.sending).map Prod.snd ++
        s.broker.unacknowledged.map TopicRecord.order := by
    rw [← hsubmitting]
    rfl
  rw [hway, Cluster.onTheWay]
  simp only [List.map_append, List.append_assoc]
  refine List.Perm.append_left _ ?_
  refine List.perm_append_comm.trans ?_
  simp only [List.append_assoc, List.Perm.refl]

/-- A task that is submitted stays on its way. -/
theorem Cluster.way_submit {k : ℕ} {e : Inst × OrderPaidEvent} (he : s.submitting[k]? = some e) :
    Cluster.onTheWay
      { s with submitting := s.submitting.eraseIdx k, queue := s.queue ++ [e] } ~ s.onTheWay := by
  refine List.Perm.append_right _ (List.Perm.map _ (List.Perm.append_right _ ?_))
  calc s.submitting.eraseIdx k ++ (s.queue ++ [e])
      ~ (s.submitting.eraseIdx k ++ s.queue) ++ [e] := by rw [List.append_assoc]
    _ ~ e :: (s.submitting.eraseIdx k ++ s.queue) := List.perm_append_singleton _ _
    _ ~ s.submitting ++ s.queue := ((perm_cons_eraseIdx he).append_right _).symm

/-- A task that is started stays on its way. -/
theorem Cluster.way_start [DecidableEq Inst] {inst : Inst} {e : Inst × OrderPaidEvent}
    (he : s.queue.find? (fun e => e.1 = inst) = some e) :
    Cluster.onTheWay
      { s with
        queue := s.queue.eraseP fun e => e.1 = inst
        sending := s.sending ++ [e] } ~ s.onTheWay := by
  refine List.Perm.append_right _ (List.Perm.map _ ?_)
  simp only [List.append_assoc]
  refine List.Perm.append_left _ ?_
  calc (s.queue.eraseP fun e => e.1 = inst) ++ (s.sending ++ [e])
      ~ ((s.queue.eraseP fun e => e.1 = inst) ++ s.sending) ++ [e] := by rw [List.append_assoc]
    _ ~ e :: ((s.queue.eraseP fun e => e.1 = inst) ++ s.sending) :=
      List.perm_append_singleton _ _
    _ ~ s.queue ++ s.sending := ((perm_cons_eraseP he).append_right _).symm

/-- A task that sends its message takes it off the way. -/
theorem Cluster.way_send {k : ℕ} {e : Inst × OrderPaidEvent} (he : s.sending[k]? = some e) :
    s.onTheWay ~ e.2 :: Cluster.onTheWay { s with sending := s.sending.eraseIdx k } := by
  have hsending : s.submitting ++ s.queue ++ s.sending ~
      e :: (s.submitting ++ s.queue ++ s.sending.eraseIdx k) :=
    ((perm_cons_eraseIdx he).append_left _).trans List.perm_middle
  exact (hsending.map Prod.snd).append_right _

/-- A record whose sender gives up is still on its way. -/
theorem Cluster.way_leave (r : TopicRecord) :
    Cluster.onTheWay { s with broker := s.broker.leave r } ~ r.order :: s.onTheWay := by
  simp only [Cluster.onTheWay, Broker.leave, List.map_append, List.map_singleton,
    ← List.append_assoc]
  exact List.perm_append_singleton _ _

/-- A record that is settled is taken off the way. -/
theorem Cluster.way_settle {k : ℕ} {r : TopicRecord} (hr : s.broker.unacknowledged[k]? = some r) :
    s.onTheWay ~ r.order :: Cluster.onTheWay { s with broker := { s.broker with
      unacknowledged := s.broker.unacknowledged.eraseIdx k } } :=
  (((perm_cons_eraseIdx hr).map _).append_left _).trans List.perm_middle

end Way

variable [DecidableEq I] [DecidableEq Inst]

/-- Every step keeps what Redis holds to paid orders. -/
theorem Cluster.RedisPaid.step {a : Action Inst I} (h : s.RedisPaid)
    (hstep : s.step d a = some t) : t.RedisPaid := by
  cases a with
  | db l =>
    obtain ⟨db, hdb, rfl⟩ := Option.map_eq_some_iff.mp hstep
    obtain ⟨released, hpaid, hrecording, -⟩ := Cluster.advance_spec (d := d) hdb
    refine ⟨fun e he => ?_, h.members_nodup, fun menuId e he => ?_⟩
    · rw [hrecording] at he
      rw [hpaid]
      rcases List.mem_append.mp he with hold | hnew
      · exact List.mem_append_left _ (h.recording_paid e hold)
      · exact List.mem_append_right _ (List.mem_map_of_mem hnew)
    · obtain ⟨event, hevent, hrest⟩ := h.member_paid menuId e he
      exact ⟨event, hpaid ▸ List.mem_append_left _ hevent, hrest⟩
  | record k reply =>
    obtain ⟨e, he, rfl⟩ := Option.map_eq_some_iff.mp hstep
    have hmem := List.mem_of_getElem? he
    have hredis : ((PopularMenuRedisEventListener.recordAfterCommit reply e.2).exec
        (s.counterState e.1)).2.redis = s.redis ∨
        ((PopularMenuRedisEventListener.recordAfterCommit reply e.2).exec
        (s.counterState e.1)).2.redis = zaddOrder s.redis e.2 := by
      rw [recordAfterCommit_exec]
      rcases reply with _ | ⟨_ | _, _⟩
      · exact .inr rfl
      · exact .inl rfl
      · exact .inr rfl
    refine ⟨fun e' he' => h.recording_paid e' (List.mem_of_mem_eraseIdx he'), ?_, ?_⟩
    · rcases hredis with hredis | hredis
      · simpa only [Cluster.setCounterState, hredis] using h.members_nodup
      · simpa only [Cluster.setCounterState, hredis] using nodup_zaddOrder h.members_nodup e.2
    · intro menuId member hmember
      rcases hredis with hredis | hredis
      · simp only [Cluster.setCounterState, hredis] at hmember
        exact h.member_paid menuId member hmember
      · simp only [Cluster.setCounterState, hredis, mem_zaddOrder] at hmember
        rcases hmember with ⟨rfl, rfl⟩ | ⟨hold, -⟩
        · exact ⟨e.2, h.recording_paid e hmem, rfl, rfl, rfl⟩
        · exact h.member_paid menuId member hold
  | submit k | send k reply | settle k appended =>
    obtain ⟨e, -, rfl⟩ := Option.map_eq_some_iff.mp hstep
    exact ⟨h.recording_paid, h.members_nodup, h.member_paid⟩
  | start inst =>
    obtain ⟨-, hfind⟩ := Option.ite_none_right_eq_some.mp hstep
    obtain ⟨e, -, rfl⟩ := Option.map_eq_some_iff.mp hfind
    exact ⟨h.recording_paid, h.members_nodup, h.member_paid⟩
  | restart inst =>
    obtain rfl := Option.some.inj hstep
    exact ⟨fun e he => h.recording_paid e (List.mem_of_mem_filter he), h.members_nodup,
      h.member_paid⟩
  | read inst now raised =>
    obtain rfl := Option.some.inj hstep
    have hredis : (s.getPopularMenus d inst now raised).2.redis = s.redis :=
      getPopularMenus_keeps_redis raised d.menus _ now (s.counterState inst)
    refine ⟨h.recording_paid, ?_, fun menuId member hmember => ?_⟩
    · simpa only [Cluster.setCounterState, hredis] using h.members_nodup
    · simp only [Cluster.setCounterState, hredis] at hmember
      exact h.member_paid menuId member hmember

/-- A record carries the order that it was made of. -/
theorem recordOf_order (event : OrderPaidEvent) : (recordOf event).order = event := rfl

/-- A step keeps the records of given-up sends what they are. -/
theorem Cluster.unacknowledged_step {a : Action Inst I}
    (h : ∀ r ∈ s.broker.unacknowledged, r = recordOf r.order) (hstep : s.step d a = some t) :
    ∀ r ∈ t.broker.unacknowledged, r = recordOf r.order := by
  cases a with
  | db l =>
    obtain ⟨db, -, rfl⟩ := Option.map_eq_some_iff.mp hstep
    exact h
  | record k reply | submit k =>
    obtain ⟨e, -, rfl⟩ := Option.map_eq_some_iff.mp hstep
    exact h
  | start inst =>
    obtain ⟨-, hfind⟩ := Option.ite_none_right_eq_some.mp hstep
    obtain ⟨e, -, rfl⟩ := Option.map_eq_some_iff.mp hfind
    exact h
  | read inst now raised =>
    obtain rfl := Option.some.inj hstep
    exact h
  | send k reply =>
    obtain ⟨e, -, rfl⟩ := Option.map_eq_some_iff.mp hstep
    intro r hr
    simp only [sendAfterCommit_exec] at hr
    cases reply with
    | acknowledged | raised => exact h r hr
    | interrupted | failed =>
      rcases List.mem_append.mp hr with hr | hr
      · exact h r hr
      · obtain rfl := List.mem_singleton.mp hr
        rfl
  | settle k appended =>
    obtain ⟨e, -, rfl⟩ := Option.map_eq_some_iff.mp hstep
    intro r hr
    cases appended <;> exact h r (List.mem_of_mem_eraseIdx hr)
  | restart inst =>
    obtain rfl := Option.some.inj hstep
    intro r hr
    rcases List.mem_append.mp hr with hr | hr
    · exact h r hr
    · obtain ⟨e, -, rfl⟩ := List.mem_map.mp hr
      rfl

/-- A restart loses what has not been sent; what was being sent is still on its way. -/
theorem Cluster.way_restart {inst : Inst} (hstep : s.step d (.restart inst) = some t) :
    t.onTheWay.Subperm s.onTheWay := by
  obtain rfl := Option.some.inj hstep
  have hsending : (s.sending.filter fun e => e.1 ≠ inst).map Prod.snd ++
      (s.sending.filter fun e => e.1 = inst).map Prod.snd ~ s.sending.map Prod.snd := by
    rw [← List.map_append]
    refine List.Perm.map _ (List.perm_append_comm.trans ?_)
    simpa using List.filter_append_perm (fun e => decide (e.1 = inst)) s.sending
  have hrecorded : ((s.sending.filter fun e => e.1 = inst).map fun e => recordOf e.2).map
      TopicRecord.order = (s.sending.filter fun e => e.1 = inst).map Prod.snd := by
    rw [List.map_map]
    rfl
  simp only [Cluster.onTheWay, List.map_append, hrecorded, List.append_assoc]
  refine List.Subperm.append (List.filter_sublist.map _).subperm
    (List.Subperm.append (List.filter_sublist.map _).subperm (List.Perm.subperm ?_))
  calc (s.sending.filter fun e => e.1 ≠ inst).map Prod.snd ++
        (s.broker.unacknowledged.map TopicRecord.order ++
          (s.sending.filter fun e => e.1 = inst).map Prod.snd)
      ~ (s.sending.filter fun e => e.1 ≠ inst).map Prod.snd ++
        ((s.sending.filter fun e => e.1 = inst).map Prod.snd ++
          s.broker.unacknowledged.map TopicRecord.order) :=
        List.perm_append_comm.append_left _
    _ ~ s.sending.map Prod.snd ++ s.broker.unacknowledged.map TopicRecord.order := by
        rw [← List.append_assoc]
        exact hsending.append_right _

/-- What a step does to the messages: a commit puts new ones on their way; most
steps move them along or lose them; some take one off the way and append its record
to the partition of its user. -/
theorem Cluster.step_way {a : Action Inst I}
    (hrecords : ∀ r ∈ s.broker.unacknowledged, r = recordOf r.order)
    (hstep : s.step d a = some t) :
    (∃ released, t.paidEvents = s.paidEvents ++ released ∧
      t.onTheWay.Perm (s.onTheWay ++ released) ∧ t.broker.topic = s.broker.topic) ∨
    (t.paidEvents = s.paidEvents ∧ t.onTheWay.Subperm s.onTheWay ∧
      t.broker.topic = s.broker.topic) ∨
    ∃ event, s.appends a = some event ∧ t.paidEvents = s.paidEvents ∧
      s.onTheWay.Perm (event :: t.onTheWay) ∧
      t.broker.topic = Function.update s.broker.topic (partitionOf d.partitionFor event)
        (s.broker.topic (partitionOf d.partitionFor event) ++ [recordOf event]) := by
  cases a with
  | db l =>
    obtain ⟨db, hdb, rfl⟩ := Option.map_eq_some_iff.mp hstep
    obtain ⟨released, hpaid, -, hsubmitting⟩ := Cluster.advance_spec (d := d) hdb
    exact .inl ⟨released.map Prod.snd, hpaid, Cluster.way_advance hsubmitting, rfl⟩
  | record k reply =>
    obtain ⟨e, -, rfl⟩ := Option.map_eq_some_iff.mp hstep
    exact .inr (.inl ⟨rfl, List.Subperm.refl _, rfl⟩)
  | read inst now raised =>
    obtain rfl := Option.some.inj hstep
    exact .inr (.inl ⟨rfl, List.Subperm.refl _, rfl⟩)
  | submit k =>
    obtain ⟨e, he, rfl⟩ := Option.map_eq_some_iff.mp hstep
    exact .inr (.inl ⟨rfl, (Cluster.way_submit he).subperm, rfl⟩)
  | start inst =>
    obtain ⟨-, hfind⟩ := Option.ite_none_right_eq_some.mp hstep
    obtain ⟨e, he, rfl⟩ := Option.map_eq_some_iff.mp hfind
    exact .inr (.inl ⟨rfl, (Cluster.way_start he).subperm, rfl⟩)
  | send k reply =>
    obtain ⟨e, he, rfl⟩ := Option.map_eq_some_iff.mp hstep
    have hway := Cluster.way_send he
    simp only [sendAfterCommit_exec]
    cases reply with
    | acknowledged => exact .inr (.inr ⟨e.2, by simp [Cluster.appends, he], rfl, hway, rfl⟩)
    | raised => exact .inr (.inl
        ⟨rfl, (List.sublist_cons_self _ _).subperm.trans hway.symm.subperm, rfl⟩)
    | interrupted | failed =>
      have hleft := Cluster.way_leave (recordOf e.2)
        (s := ({ s with sending := s.sending.eraseIdx k } : Cluster Inst I))
      exact .inr (.inl ⟨rfl, (hleft.trans hway.symm).subperm, rfl⟩)
  | settle k appended =>
    obtain ⟨r, hr, rfl⟩ := Option.map_eq_some_iff.mp hstep
    have hway := Cluster.way_settle hr
    cases appended with
    | false => exact .inr (.inl
        ⟨rfl, (List.sublist_cons_self _ _).subperm.trans hway.symm.subperm, rfl⟩)
    | true =>
      refine .inr (.inr ⟨r.order, by simp [Cluster.appends, hr], rfl, hway, ?_⟩)
      have hrecord : r = recordOf r.order := hrecords r (List.mem_of_getElem? hr)
      simp only [Broker.append, if_true, partitionOf]
      rw [← hrecord]
      exact congrArg (fun r' : TopicRecord => Function.update s.broker.topic
        (d.partitionFor r'.key) (s.broker.topic (d.partitionFor r'.key) ++ [r])) hrecord
  | restart inst =>
    have hway := Cluster.way_restart hstep
    obtain rfl := Option.some.inj hstep
    exact .inr (.inl ⟨rfl, hway, rfl⟩)

/-- Every step keeps the messages to those of paid orders, in their partitions. -/
theorem Cluster.SendsPaid.step {a : Action Inst I} (h : s.SendsPaid d)
    (hnodup : t.paidEvents.Nodup) (hstep : s.step d a = some t) : t.SendsPaid d := by
  have hrecords := Cluster.unacknowledged_step h.unacknowledged_record hstep
  rcases Cluster.step_way h.unacknowledged_record hstep with ⟨released, hpaid, hway, htopic⟩ |
    ⟨hpaid, hway, htopic⟩ | ⟨event, -, hpaid, hway, htopic⟩
  · rw [hpaid] at hnodup
    obtain ⟨-, hreleased, hdisjoint⟩ := List.nodup_append.mp hnodup
    have hold : ∀ event ∈ t.onTheWay, event ∈ s.onTheWay ∨ event ∈ released :=
      fun event hevent => List.mem_append.mp (hway.subset hevent)
    refine ⟨hrecords, fun event hevent => ?_, ?_, fun p r hr => ?_, htopic ▸ h.topic_nodup⟩
    · rw [hpaid, List.mem_append]
      exact (hold event hevent).imp_left (h.way_paid event)
    · refine hway.nodup_iff.mpr (List.nodup_append.mpr ⟨h.way_nodup, hreleased, ?_⟩)
      exact fun event hevent => hdisjoint event (h.way_paid event hevent)
    · obtain ⟨hrecord, hp, hmem, hnot⟩ := h.record_paid p r (htopic ▸ hr)
      refine ⟨hrecord, hp, hpaid ▸ List.mem_append_left _ hmem, fun hevent => ?_⟩
      rcases hold _ hevent with hevent | hevent
      · exact hnot hevent
      · exact hdisjoint _ hmem _ hevent rfl
  · obtain ⟨way, hperm, hsub⟩ := hway
    have hold : ∀ event ∈ t.onTheWay, event ∈ s.onTheWay :=
      fun event hevent => hsub.subset (hperm.symm.subset hevent)
    refine ⟨hrecords, fun event hevent => hpaid ▸ h.way_paid event (hold event hevent),
      hperm.nodup_iff.mp (h.way_nodup.sublist hsub), fun p r hr => ?_, htopic ▸ h.topic_nodup⟩
    obtain ⟨hrecord, hp, hmem, hnot⟩ := h.record_paid p r (htopic ▸ hr)
    exact ⟨hrecord, hp, hpaid ▸ hmem, fun hevent => hnot (hold _ hevent)⟩
  · obtain ⟨hfresh, hrest⟩ := List.nodup_cons.mp (hway.nodup_iff.mp h.way_nodup)
    have hold : ∀ event' ∈ t.onTheWay, event' ∈ s.onTheWay :=
      fun event' hevent => hway.symm.subset (List.mem_cons_of_mem _ hevent)
    have hmem : event ∈ s.onTheWay := hway.symm.subset List.mem_cons_self
    refine ⟨hrecords, fun event' hevent => hpaid ▸ h.way_paid event' (hold event' hevent), hrest,
      ?_, ?_⟩
    · have hrecord : ∀ p, ∀ r ∈ s.broker.topic p, r = recordOf r.order ∧
          p = partitionOf d.partitionFor r.order ∧ r.order ∈ t.paidEvents ∧
            r.order ∉ t.onTheWay := by
        intro p r hr
        obtain ⟨hrecord, hp, hpaid', hnot⟩ := h.record_paid p r hr
        exact ⟨hrecord, hp, hpaid ▸ hpaid', fun hevent => hnot (hold _ hevent)⟩
      intro p r hr
      rw [htopic] at hr
      by_cases hp : p = partitionOf d.partitionFor event
      · subst hp
        rw [Function.update_self, List.mem_append, List.mem_singleton] at hr
        rcases hr with hr | rfl
        · exact hrecord _ r hr
        · exact ⟨rfl, rfl, hpaid ▸ h.way_paid _ hmem, hfresh⟩
      · rw [Function.update_of_ne hp] at hr
        exact hrecord p r hr
    · intro p
      rw [htopic]
      by_cases hp : p = partitionOf d.partitionFor event
      · subst hp
        rw [Function.update_self, List.map_append, List.map_singleton]
        refine List.nodup_append.mpr ⟨h.topic_nodup _, List.nodup_singleton _, ?_⟩
        rintro event' hevent' event'' hevent'' rfl
        obtain rfl := List.mem_singleton.mp hevent''
        obtain ⟨r, hr, horder⟩ := List.mem_map.mp hevent'
        exact (h.record_paid _ r hr).2.2.2 (horder ▸ hmem)
      · rw [Function.update_of_ne hp]
        exact h.topic_nodup p

end Runs

section Reachable

variable {Inst I : Type} [DecidableEq Inst] [DecidableEq I] {d : Deployment Inst I}
  {store : Store schema} {nextId : ℕ} {s : Cluster Inst I}

/-- The database of the application runs the interleaved transactions. -/
theorem Cluster.reachable_db
    (h : Reachable (Cluster.step d) (Cluster.start d store nextId) s) :
    Reachable (System.step d.menus.findById)
      (System.start store nextId fun i => (d.requests i).body) s.db := by
  refine h.invariant (I := fun s => Reachable (System.step d.menus.findById)
    (System.start store nextId fun i => (d.requests i).body) s.db) (Reachable.refl _ _) ?_
  intro s a t hs hstep
  cases a with
  | db l =>
    obtain ⟨db, hdb, rfl⟩ := Option.map_eq_some_iff.mp hstep
    exact hs.snoc _ hdb
  | record | submit | send | settle =>
    obtain ⟨e, -, rfl⟩ := Option.map_eq_some_iff.mp hstep
    exact hs
  | start inst =>
    obtain ⟨-, hfind⟩ := Option.ite_none_right_eq_some.mp hstep
    obtain ⟨e, -, rfl⟩ := Option.map_eq_some_iff.mp hfind
    exact hs
  | restart | read =>
    obtain rfl := Option.some.inj hstep
    exact hs

omit [DecidableEq I] in
/-- Every paid order has its own event. -/
theorem Paid.paidEvents_nodup {menus : Menus} {paid : List (ℕ × Order)}
    {db : System schema I Response} (h : Paid menus store nextId db paid) :
    (db.outbox.map Prod.snd).Nodup :=
  h.outbox_eq ▸ (List.Nodup.of_map _ h.nodup).map paidEvent_injective

/-- **Deliveries.** In every reachable state Redis and Kafka hold paid orders only,
each at most once. -/
theorem Cluster.deliveries (h : Reachable (Cluster.step d) (Cluster.start d store nextId) s) :
    s.RedisPaid ∧ s.SendsPaid d := by
  have hboth : Reachable (Cluster.step d) (Cluster.start d store nextId) s ∧
      s.RedisPaid ∧ s.SendsPaid d := by
    refine h.invariant (I := fun s =>
      Reachable (Cluster.step d) (Cluster.start d store nextId) s ∧ s.RedisPaid ∧ s.SendsPaid d)
      ⟨Reachable.refl _ _, ?_, ?_⟩ ?_
    · exact ⟨by simp [Cluster.start], by simp [Cluster.start], by simp [Cluster.start]⟩
    · exact ⟨by simp [Cluster.start], by simp [Cluster.start, Cluster.onTheWay],
        by simp [Cluster.start, Cluster.onTheWay], by simp [Cluster.start],
        by simp [Cluster.start]⟩
    · rintro s a t ⟨hs, hredis, hsends⟩ hstep
      have ht := hs.snoc _ hstep
      obtain ⟨paid, hpaid⟩ := exists_paid (Cluster.reachable_db ht)
      exact ⟨ht, hredis.step hstep, hsends.step hpaid.paidEvents_nodup hstep⟩
  exact hboth.2

/-- What Redis and Kafka hold, in terms of the table `orders`. -/
structure Cluster.OwnOrders (s : Cluster Inst I) : Prop where
  member_order : ∀ menuId, ∀ e ∈ s.redis menuId, ∃ order, (e.1, order) ∈ ordersTable s.db.store ∧
    order.menuId = menuId
  members_nodup : ∀ menuId, ((s.redis menuId).map Prod.fst).Nodup
  members_distinct : ∀ menuId menuId', ∀ e ∈ s.redis menuId, ∀ e' ∈ s.redis menuId',
    e.1 = e'.1 → menuId = menuId'
  record_order : ∀ p, ∀ r ∈ s.broker.topic p,
    ∃ o ∈ ordersTable s.db.store, r = recordOf (paidEvent o)
  records_nodup : ∀ p, ((s.broker.topic p).map TopicRecord.order).Nodup
  records_distinct : ∀ p p', ∀ r ∈ s.broker.topic p, ∀ r' ∈ s.broker.topic p',
    r.order = r'.order → p = p'

/-- In every reachable state Redis and Kafka hold nothing but orders of the table. -/
theorem Cluster.ownOrders (h : Reachable (Cluster.step d) (Cluster.start d store nextId) s) :
    s.OwnOrders := by
  obtain ⟨hredis, hsends⟩ := Cluster.deliveries h
  obtain ⟨paid, hpaid⟩ := exists_paid (Cluster.reachable_db h)
  have hevents : ∀ event ∈ s.paidEvents, ∃ o ∈ paid, paidEvent o = event := by
    intro event hevent
    rw [Cluster.paidEvents, hpaid.outbox_eq] at hevent
    exact List.mem_map.mp hevent
  have horders : ∀ o ∈ paid, o ∈ ordersTable s.db.store := fun o ho =>
    hpaid.orders_eq ▸ List.mem_append_right _ ho
  have hmember : ∀ menuId, ∀ e ∈ s.redis menuId, ∃ o ∈ paid, o.1 = e.1 ∧ o.2.menuId = menuId := by
    intro menuId e he
    obtain ⟨event, hevent, hid, hmenu, -⟩ := hredis.member_paid menuId e he
    obtain ⟨o, ho, rfl⟩ := hevents event hevent
    exact ⟨o, ho, hid, hmenu⟩
  refine ⟨fun menuId e he => ?_, hredis.members_nodup, fun menuId menuId' e he e' he' hid => ?_,
    fun p r hr => ?_, hsends.topic_nodup, fun p p' r hr r' hr' horder => ?_⟩
  · obtain ⟨o, ho, hid, hmenu⟩ := hmember menuId e he
    exact ⟨o.2, hid ▸ horders o ho, hmenu⟩
  · obtain ⟨o, ho, hoid, hmenu⟩ := hmember menuId e he
    obtain ⟨o', ho', hoid', hmenu'⟩ := hmember menuId' e' he'
    have hsame : o = o' := List.inj_on_of_nodup_map hpaid.nodup ho ho' (by omega)
    rw [← hmenu, ← hmenu', hsame]
  · obtain ⟨hrecord, -, hmem, -⟩ := hsends.record_paid p r hr
    obtain ⟨o, ho, horder⟩ := hevents _ hmem
    exact ⟨o, horders o ho, by rw [horder]; exact hrecord⟩
  · obtain ⟨-, hp, -⟩ := hsends.record_paid p r hr
    obtain ⟨-, hp', -⟩ := hsends.record_paid p' r' hr'
    rw [hp, hp', horder]

end Reachable

end CoffeeOrder.Shop
