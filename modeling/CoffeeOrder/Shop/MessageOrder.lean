import CoffeeOrder.Kit.Delivery
import CoffeeOrder.Shop.ReadAgreement

/-!
# The order of one user's messages

The row lock of a user orders that user's commits, and the key sends the messages
to one partition, which keeps the order of its appends. The threads of the task
executor decide in which order they append.
-/

namespace CoffeeOrder.Shop

open Kit
open scoped List

section Runs

variable {Inst I : Type} {d : Deployment Inst I} {s t : Cluster Inst I}

/-- The orders of a user whose messages are in the topic, as they stand in the user's
partition. -/
def Cluster.sentOrders (d : Deployment Inst I) (s : Cluster Inst I) (userId : Long) :
    List OrderPaidEvent :=
  ((s.broker.topic (d.partitionFor (stringValueOf userId))).map TopicRecord.order).filter
    fun event => event.userId = userId

/-- The messages of every user stand in the order of the user's commits. -/
def Cluster.InCommitOrder (d : Deployment Inst I) (s : Cluster Inst I) : Prop :=
  ∀ userId, s.sentOrders d userId <+ s.paidEvents

/-- The step does not append a message while an order that the same user paid
earlier is still on its way. -/
def Cluster.NoneAhead (s : Cluster Inst I) (a : Action Inst I) : Prop :=
  ∀ event ∈ s.appends a, ∀ earlier ∈ s.onTheWay, earlier.userId = event.userId →
    ¬[earlier, event] <+ s.paidEvents

instance (s : Cluster Inst I) (a : Action Inst I) : Decidable (s.NoneAhead a) :=
  inferInstanceAs (Decidable (∀ event ∈ s.appends a, _))

/-- Everything sent of one user was paid before everything still on its way. -/
def Cluster.UserInOrder (d : Deployment Inst I) (s : Cluster Inst I) (userId : Long) : Prop :=
  InOrder (s.paidEvents.filter fun event => event.userId = userId) (s.sentOrders d userId)
    (s.onTheWay.filter fun event => event.userId = userId)

/-- A step that appends nothing sends nothing. -/
theorem Cluster.sentOrders_of_topic_eq (h : t.broker.topic = s.broker.topic) (userId : Long) :
    t.sentOrders d userId = s.sentOrders d userId := by
  rw [Cluster.sentOrders, Cluster.sentOrders, h]

/-- An appended record is the last one of its user, and of no other. -/
theorem Cluster.sentOrders_append {event : OrderPaidEvent}
    (h : t.broker.topic = Function.update s.broker.topic (partitionOf d.partitionFor event)
      (s.broker.topic (partitionOf d.partitionFor event) ++ [recordOf event])) (userId : Long) :
    t.sentOrders d userId =
      s.sentOrders d userId ++ if event.userId = userId then [event] else [] := by
  rw [Cluster.sentOrders, Cluster.sentOrders, h]
  by_cases huser : event.userId = userId
  · subst huser
    simp [partitionOf, recordOf_order]
  · by_cases hp : d.partitionFor (stringValueOf userId) = partitionOf d.partitionFor event
    · rw [hp, Function.update_self]
      simp [recordOf_order, huser]
    · rw [Function.update_of_ne hp]
      simp [huser]

variable [DecidableEq I] [DecidableEq Inst]

/-- A step that lets no order of the user overtake another keeps their order. -/
theorem Cluster.UserInOrder.step {a : Action Inst I} {userId : Long}
    (h : s.UserInOrder d userId) (hsends : s.SendsPaid d) (hahead : s.NoneAhead a)
    (hstep : s.step d a = some t) : t.UserInOrder d userId := by
  rcases Cluster.step_way hsends.unacknowledged_record hstep with
    ⟨released, hpaid, hway, htopic⟩ | ⟨hpaid, hway, htopic⟩ |
    ⟨event, happends, hpaid, hway, htopic⟩
  · rw [Cluster.UserInOrder, hpaid, List.filter_append, Cluster.sentOrders_of_topic_eq htopic]
    refine h.extend ?_
    rw [← List.filter_append]
    exact (hway.filter _).subset
  · rw [Cluster.UserInOrder, hpaid, Cluster.sentOrders_of_topic_eq htopic]
    exact h.lose fun event hevent => by
      rw [List.mem_filter] at hevent ⊢
      exact hevent.imp_left fun hmem => hway.subset hmem
  · have hold : ∀ event' ∈ t.onTheWay, event' ∈ s.onTheWay :=
      fun event' hevent => hway.symm.subset (List.mem_cons_of_mem _ hevent)
    have hsub : (t.onTheWay.filter fun event => event.userId = userId) ⊆
        s.onTheWay.filter fun event => event.userId = userId := by
      intro event' hevent
      rw [List.mem_filter] at hevent ⊢
      exact hevent.imp_left (hold event')
    rw [Cluster.UserInOrder, hpaid, Cluster.sentOrders_append htopic]
    by_cases huser : event.userId = userId
    · rw [if_pos huser]
      have hgone := (List.nodup_cons.mp (hway.nodup_iff.mp hsends.way_nodup)).1
      refine h.deliver ?_ (fun earlier hearlier hpair => ?_) hsub ?_
      · exact List.mem_filter.mpr ⟨hway.symm.subset List.mem_cons_self, by simpa using huser⟩
      · obtain ⟨hmem, hsame⟩ := List.mem_filter.mp hearlier
        refine hahead event happends earlier hmem ?_ (hpair.trans List.filter_sublist)
        exact (of_decide_eq_true hsame).trans huser.symm
      · exact fun hmem => hgone (List.mem_filter.mp hmem).1
    · rw [if_neg huser, List.append_nil]
      exact h.lose hsub

end Runs

section CommitOrder

variable {Inst I : Type} [DecidableEq Inst] [DecidableEq I]

/-- **Per-user order.** In every run none of whose steps appends a message while an
order that the same user paid earlier is still on its way, the messages of every
user stand in the order of the user's commits. -/
theorem messages_in_commit_order (d : Deployment Inst I) (store : Store schema) (nextId : ℕ)
    (ls : List (Action Inst I)) (s : Cluster Inst I)
    (hahead : StepsMeet (Cluster.step d) Cluster.NoneAhead (Cluster.start d store nextId) ls)
    (hrun : runs (Cluster.step d) (Cluster.start d store nextId) ls = some s) :
    s.InCommitOrder d := by
  have hinv : Reachable (Cluster.step d) (Cluster.start d store nextId) s ∧
      ∀ userId, s.UserInOrder d userId := by
    refine invariant_of_stepsMeet (I := fun s =>
      Reachable (Cluster.step d) (Cluster.start d store nextId) s ∧
        ∀ userId, s.UserInOrder d userId) hahead hrun
      ⟨Reachable.refl _ _, fun userId => InOrder.nil⟩ ?_
    rintro s a t ⟨hreach, horder⟩ hnone hstep
    exact ⟨hreach.snoc _ hstep,
      fun userId => (horder userId).step (Cluster.deliveries hreach).2 hnone hstep⟩
  exact fun userId => (hinv.2 userId).sublist.trans List.filter_sublist

/-- One user, two orders of different menus, one instance with eight threads. -/
def oneUser : Deployment Unit Bool where
  menus := twoOrders.menus
  requests i := .order 1 (if i then 2 else 1)
  home _ := ()
  poolSize := 8
  partitionFor _ := 0

/-- Both orders commit, the first one first, and both tasks get a thread. -/
def bothStarted : List (Action Unit Bool) :=
  List.replicate 8 (.db (.run false default)) ++ List.replicate 8 (.db (.run true default)) ++
    [.submit 0, .submit 0, .start (), .start ()]

/-- The threads send in the order of the commits. -/
theorem messages_in_commit_order_sequential :
    ∃ s, runs (Cluster.step oneUser) (Cluster.start oneUser twoUsers.store 1)
        (bothStarted ++ [.send 0 .acknowledged, .send 0 .acknowledged]) = some s ∧
      (s.sentOrders oneUser 1).length = 2 ∧ s.InCommitOrder oneUser := by
  obtain ⟨s, hrun, htest⟩ := exists_of_any_runs (Cluster.step oneUser)
    (Cluster.start oneUser twoUsers.store 1)
    (bothStarted ++ [.send 0 .acknowledged, .send 0 .acknowledged])
    (fun s => (s.sentOrders oneUser 1).length == 2) (by decide +kernel)
  exact ⟨s, hrun, by simpa using htest,
    messages_in_commit_order oneUser twoUsers.store 1 _ s (by decide +kernel) hrun⟩

/-- The thread of the second order may be faster than that of the first. -/
theorem not_messages_in_commit_order :
    ¬∀ (d : Deployment Unit Bool) (store : Store schema) (nextId : ℕ) (s : Cluster Unit Bool),
      1 < d.poolSize → Reachable (Cluster.step d) (Cluster.start d store nextId) s →
      s.InCommitOrder d := by
  intro h
  obtain ⟨s, hrun, htest⟩ := exists_of_any_runs (Cluster.step oneUser)
    (Cluster.start oneUser twoUsers.store 1)
    (bothStarted ++ [.send 1 .acknowledged, .send 0 .acknowledged])
    (fun s => !decide (s.sentOrders oneUser 1 <+ s.paidEvents)) (by decide +kernel)
  have horder := h oneUser twoUsers.store 1 s (by decide) ⟨_, hrun⟩ 1
  simp [horder] at htest

end CommitOrder

end CoffeeOrder.Shop
