import CoffeeOrder.Kit.Machine
import CoffeeOrder.Shop.DataPlatform
import CoffeeOrder.Shop.PaidOrders

/-!
# The application instances around one database

Several instances serve requests against one MySQL, one Redis and one Kafka
topic. A commit hands the event of its order to the two after-commit listeners
of its instance: Redis recording runs in the committing thread, sending is
submitted to the instance's task executor, whose queue is first in, first out and
whose threads run side by side. A restart loses what the instance held in memory:
its stale flag, its pending listeners and its queue. A running send may already
have left; whether its record arrives is settled later, as it is for a send that
its thread has given up. The rollback of the open transactions is the `abort` of the
database step.
-/

namespace CoffeeOrder.Shop

open Kit

variable {Inst I : Type}

/-- What is fixed while the application runs. -/
structure Deployment (Inst I : Type) where
  menus : Menus
  requests : I → Request
  /-- The instance that serves a request. -/
  home : I → Inst
  /-- The threads of each instance's task executor. -/
  poolSize : ℕ
  /-- The partition that Kafka chooses for a key. -/
  partitionFor : String → ℕ

/-- The state of all instances and of what they share. -/
structure Cluster (Inst I : Type) where
  db : System schema I Response
  readModelStale : Inst → Bool
  redis : ZSets
  /-- Paid orders whose Redis listener has not finished. -/
  recording : List (Inst × OrderPaidEvent)
  /-- Paid orders whose data-platform listener has not been submitted. -/
  submitting : List (Inst × OrderPaidEvent)
  /-- Submitted tasks that wait for a thread. -/
  queue : List (Inst × OrderPaidEvent)
  /-- Tasks that run on a thread of the pool. -/
  sending : List (Inst × OrderPaidEvent)
  broker : Broker

/-- What happens next. -/
inductive Action (Inst I : Type)
  /-- A transaction issues a statement, or is aborted. -/
  | db (l : Label schema I)
  /-- The `k`-th pending Redis listener runs. -/
  | record (k : ℕ) (reply : ZaddReply)
  /-- The `k`-th pending data-platform listener is submitted to the executor. -/
  | submit (k : ℕ)
  /-- An idle thread takes the oldest task of its instance's queue. -/
  | start (inst : Inst)
  /-- The `k`-th running task sends its message. -/
  | send (k : ℕ) (reply : SendReply)
  /-- The `k`-th record whose sender has given up is appended after all, or lost. -/
  | settle (k : ℕ) (appended : Bool)
  | restart (inst : Inst)
  /-- A call of `getPopularMenus`; `raised` says which `ZCOUNT` calls throw. -/
  | read (inst : Inst) (now : Instant) (raised : Long → Option Throwable)

/-- The start of a run: nothing in Redis or Kafka, nothing in memory. -/
def Cluster.start (d : Deployment Inst I) (store : Store schema) (nextId : ℕ) : Cluster Inst I where
  db := System.start store nextId fun i => (d.requests i).body
  readModelStale _ := false
  redis _ := []
  recording := []
  submitting := []
  queue := []
  sending := []
  broker := ⟨fun _ => [], []⟩

namespace Cluster

/-- The events of the paid orders, in commit order. -/
def paidEvents (s : Cluster Inst I) : List OrderPaidEvent := s.db.outbox.map Prod.snd

/-- The database has moved on; released events go to both listeners. -/
def advance (d : Deployment Inst I) (s : Cluster Inst I) (db : System schema I Response) :
    Cluster Inst I :=
  let released := (db.outbox.drop s.db.outbox.length).map fun e => (d.home e.1, e.2)
  { s with
    db := db
    recording := s.recording ++ released
    submitting := s.submitting ++ released }

variable [DecidableEq Inst]

/-- What the code of one instance sees of the read model. -/
def counterState (s : Cluster Inst I) (inst : Inst) : CounterState :=
  ⟨s.readModelStale inst, s.redis⟩

/-- One instance has left its flag and Redis like this. -/
def setCounterState (s : Cluster Inst I) (inst : Inst) (counter : CounterState) : Cluster Inst I :=
  { s with
    readModelStale := Function.update s.readModelStale inst counter.readModelStale
    redis := counter.redis }

/-- `getPopularMenus` on one instance. -/
def getPopularMenus (d : Deployment Inst I) (s : Cluster Inst I) (inst : Inst) (now : Instant)
    (raised : Long → Option Throwable) :
    Except Throwable (List PopularMenuResponse) × CounterState :=
  (PopularMenuService.getPopularMenus d.menus (ordersTable s.db.store) raised now).exec
    (s.counterState inst)

variable [DecidableEq I]

/-- One step of the whole application. -/
def step (d : Deployment Inst I) (s : Cluster Inst I) : Action Inst I → Option (Cluster Inst I)
  | .db l => (s.db.step d.menus.findById l).map (s.advance d)
  | .record k reply =>
    s.recording[k]?.map fun e =>
      let listener := PopularMenuRedisEventListener.recordAfterCommit reply e.2
      let s := s.setCounterState e.1 (listener.exec (s.counterState e.1)).2
      { s with recording := s.recording.eraseIdx k }
  | .submit k =>
    s.submitting[k]?.map fun e =>
      { s with submitting := s.submitting.eraseIdx k, queue := s.queue ++ [e] }
  | .start inst =>
    if s.sending.countP (fun e => e.1 = inst) < d.poolSize then
      (s.queue.find? fun e => e.1 = inst).map fun e =>
        { s with
          queue := s.queue.eraseP fun e => e.1 = inst
          sending := s.sending ++ [e] }
    else none
  | .send k reply =>
    s.sending[k]?.map fun e =>
      let listener := OrderDataPlatformEventListener.sendAfterCommit d.partitionFor reply e.2
      { s with sending := s.sending.eraseIdx k, broker := (listener.exec s.broker).2 }
  | .settle k appended =>
    s.broker.unacknowledged[k]?.map fun r =>
      let broker : Broker := { s.broker with
        unacknowledged := s.broker.unacknowledged.eraseIdx k }
      { s with broker := if appended then broker.append d.partitionFor r else broker }
  | .restart inst =>
    some { s with
      readModelStale := Function.update s.readModelStale inst false
      recording := s.recording.filter fun e => e.1 ≠ inst
      submitting := s.submitting.filter fun e => e.1 ≠ inst
      queue := s.queue.filter fun e => e.1 ≠ inst
      sending := s.sending.filter fun e => e.1 ≠ inst
      broker := { s.broker with
        unacknowledged := s.broker.unacknowledged ++
          (s.sending.filter fun e => e.1 = inst).map fun e => recordOf e.2 } }
  | .read inst now raised =>
    some (s.setCounterState inst (s.getPopularMenus d inst now raised).2)

end Cluster

end CoffeeOrder.Shop
