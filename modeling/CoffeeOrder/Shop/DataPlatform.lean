import CoffeeOrder.Kit.Call
import CoffeeOrder.Shop.Domain

/-!
# Sending order data to Kafka

`OrderDataPlatformEventListener.sendAfterCommit` and `KafkaDataPlatformClient`.
A topic is a family of partitions; the key of a record chooses its partition,
which keeps the order in which records are appended.
-/

namespace CoffeeOrder.Shop

open Kit

/-- A record of the topic, and the order it was sent for, which is not part of it. -/
structure TopicRecord where
  key : String
  value : OrderDataMessage
  order : OrderPaidEvent
  deriving DecidableEq, Repr

/-- The partitions of the topic. -/
abbrev Topic := ℕ → List TopicRecord

/-- The topic, and the records whose sender has given up waiting for their
acknowledgement: each may still be appended later, or is lost. -/
structure Broker where
  topic : Topic
  unacknowledged : List TopicRecord

/-- Java code that calls Kafka. -/
abbrev KafkaCall := Call Throwable Broker

/-- How `kafkaTemplate.send(..).get(..)` goes. -/
inductive SendReply
  | acknowledged
  | interrupted
  /-- `ExecutionException` or `TimeoutException`. -/
  | failed
  | raised (exception : Throwable)
  deriving DecidableEq, Repr

/-- `String.valueOf` of a `long`. -/
def stringValueOf (n : Long) : String := toString n.toInt

/-- `new OrderDataMessage(event.userId(), event.menuId(), event.paymentAmount())`. -/
def OrderDataMessage.of (event : OrderPaidEvent) : OrderDataMessage :=
  ⟨event.userId, event.menuId, event.paymentAmount⟩

/-- A record is appended to the partition of its key. -/
def Broker.append (partitionFor : String → ℕ) (broker : Broker) (r : TopicRecord) : Broker :=
  { broker with
    topic := Function.update broker.topic (partitionFor r.key)
      (broker.topic (partitionFor r.key) ++ [r]) }

/-- The sender of a record gives up waiting. -/
def Broker.leave (broker : Broker) (r : TopicRecord) : Broker :=
  { broker with unacknowledged := broker.unacknowledged ++ [r] }

/-- `KafkaDataPlatformClient.send`, for the message of an order. -/
def KafkaDataPlatformClient.send (partitionFor : String → ℕ) (reply : SendReply)
    (message : OrderDataMessage) (order : OrderPaidEvent) : KafkaCall Unit :=
  let r : TopicRecord := ⟨stringValueOf message.userId, message, order⟩
  match reply with
  | .acknowledged => modify fun broker => broker.append partitionFor r
  | .interrupted => do
    modify fun broker => broker.leave r
    throw (.IllegalStateException "Kafka 주문 메시지 전송이 중단됐습니다.")
  | .failed => do
    modify fun broker => broker.leave r
    throw (.IllegalStateException "Kafka 주문 메시지 전송에 실패했습니다.")
  | .raised exception => throw exception

/-- `OrderDataPlatformEventListener.sendAfterCommit`; exceptions are logged. -/
def OrderDataPlatformEventListener.sendAfterCommit (partitionFor : String → ℕ)
    (reply : SendReply) (event : OrderPaidEvent) : KafkaCall Unit :=
  tryCatch (KafkaDataPlatformClient.send partitionFor reply (OrderDataMessage.of event) event)
    fun _ => pure ()

/-- The record of an order. -/
def recordOf (event : OrderPaidEvent) : TopicRecord :=
  ⟨stringValueOf event.userId, OrderDataMessage.of event, event⟩

/-- The partition of an order's record. -/
def partitionOf (partitionFor : String → ℕ) (event : OrderPaidEvent) : ℕ :=
  partitionFor (stringValueOf event.userId)

/-- The listener always returns, whatever Kafka does with the record of its order. -/
theorem sendAfterCommit_exec (partitionFor : String → ℕ) (reply : SendReply)
    (event : OrderPaidEvent) (broker : Broker) :
    (OrderDataPlatformEventListener.sendAfterCommit partitionFor reply event).exec broker =
      (.ok (), match reply with
        | .acknowledged => broker.append partitionFor (recordOf event)
        | .interrupted | .failed => broker.leave (recordOf event)
        | .raised _ => broker) := by
  cases reply <;> rfl

end CoffeeOrder.Shop
