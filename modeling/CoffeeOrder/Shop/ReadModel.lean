import CoffeeOrder.Kit.Call
import CoffeeOrder.Kit.Ranking
import CoffeeOrder.Shop.Ledger
import Mathlib.Data.List.Dedup
import Mathlib.Data.Int.Order.Basic

/-!
# The popular-menu read model

`PopularMenuRedisCounter` with its two Redis commands, the listener that records
paid orders, and `PopularMenuService.getPopularMenus` with its fallback to the
SQL query of `OrderRepository.findPopularMenus`. A throw in the middle of a Redis
call leaves what was done before it.
-/

namespace CoffeeOrder.Shop

open Kit

/-- The `double` nearest to a `long`, ties to even; it is always an integer. -/
def doubleOfLong (n : Long) : ℤ :=
  let magnitude := n.toInt.natAbs
  let ulp := 2 ^ (Nat.log2 magnitude + 1 - 53)
  let quotient := magnitude / ulp
  let rounded :=
    if 2 * (magnitude % ulp) < ulp then quotient
    else if ulp < 2 * (magnitude % ulp) then quotient + 1
    else quotient + quotient % 2
  n.toInt.sign * (rounded * ulp : ℕ)

/-- Longs of up to 53 bits are exact doubles. -/
theorem doubleOfLong_of_lt {n : Long} (h : n.toInt.natAbs < 2 ^ 53) : doubleOfLong n = n.toInt := by
  have hbits : Nat.log2 n.toInt.natAbs + 1 - 53 = 0 := by
    by_cases hzero : n.toInt.natAbs = 0
    · rw [hzero, Nat.log2_zero]
    · have := (Nat.log2_lt hzero).mpr h
      omega
  simp only [doubleOfLong, hbits, pow_zero, Nat.mod_one, mul_zero, zero_lt_one, if_true,
    Nat.div_one, mul_one]
  exact Int.sign_mul_natAbs _

namespace LocalDateTime

/-- `LocalDateTime.minusDays`. -/
def minusDays (dateTime : LocalDateTime) (days : ℤ) : LocalDateTime :=
  ⟨dateTime.epochMicros - days * 86400000000⟩

instance : LE LocalDateTime := ⟨fun a b => a.epochMicros ≤ b.epochMicros⟩

instance : LT LocalDateTime := ⟨fun a b => a.epochMicros < b.epochMicros⟩

instance (a b : LocalDateTime) : Decidable (a ≤ b) :=
  inferInstanceAs (Decidable (a.epochMicros ≤ b.epochMicros))

instance (a b : LocalDateTime) : Decidable (a < b) :=
  inferInstanceAs (Decidable (a.epochMicros < b.epochMicros))

end LocalDateTime

/-- The sorted sets in Redis. The decimal menu id is the variable part of the key
`popular:menus:<menuId>:orders`, so the menu id stands for the key; members are
order ids, scores are doubles. -/
abbrev ZSets := Long → List (ℕ × ℤ)

/-- `ZADD`: add a member, or set the score of a present one. -/
def zadd (zset : List (ℕ × ℤ)) (member : ℕ) (score : ℤ) : List (ℕ × ℤ) :=
  zset.filter (fun e => e.1 ≠ member) ++ [(member, score)]

/-- `ZCOUNT` between two scores, both included. -/
def zcount (zset : List (ℕ × ℤ)) (min max : ℤ) : ℕ :=
  zset.countP fun e => min ≤ e.2 ∧ e.2 ≤ max

/-- What a call to `PopularMenuRedisCounter` of one instance works on. -/
structure CounterState where
  /-- The flag of this instance's JVM. -/
  readModelStale : Bool
  /-- The Redis that all instances share. -/
  redis : ZSets

/-- Java code that calls Redis. -/
abbrev RedisCall := Call Throwable CounterState

/-- How a `ZADD` goes. The client may see an exception although Redis applied the
command, for instance on a timeout. -/
inductive ZaddReply
  | ok
  | raised (applied : Bool) (exception : Throwable)

/-- `opsForZSet().add`. -/
def zsetAdd (reply : ZaddReply) (key : Long) (member : ℕ) (score : ℤ) : RedisCall Unit := do
  let applied := modify fun s =>
    { s with redis := Function.update s.redis key (zadd (s.redis key) member score) }
  match reply with
  | .ok => applied
  | .raised true exception => do
    applied
    throw exception
  | .raised false exception => throw exception

/-- `opsForZSet().count`; `raised` says for which keys the call throws. -/
def zsetCount (raised : Long → Option Throwable) (key : Long) (min max : ℤ) :
    RedisCall (Option ℕ) := do
  match raised key with
  | some exception => throw exception
  | none => return some (zcount ((← get).redis key) min max)

namespace PopularMenuRedisCounter

/-- `toEpochMicros`, in `long` arithmetic. -/
def toEpochMicros (dateTime : LocalDateTime) : Long :=
  let epochSecond := dateTime.epochMicros / 1000000
  let nano := dateTime.epochMicros % 1000000 * 1000
  Int64.ofInt epochSecond * 1000000 + Int64.ofInt (nano / 1000)

/-- `readModelStale.set(true)`. -/
def setStale : RedisCall Unit := modify fun s => { s with readModelStale := true }

/-- `record`. -/
def record (reply : ZaddReply) (orderId : ℕ) (menuId : Long) (orderedAt : LocalDateTime) :
    RedisCall Unit :=
  tryCatch (zsetAdd reply menuId orderId (doubleOfLong (toEpochMicros orderedAt)))
    fun exception => do
      setStale
      throw exception

/-- The loop of `countByMenuIds`. -/
def countEach (raised : Long → Option Throwable) (fromScore toScoreExclusive : Long) :
    List Long → RedisCall (List (Long × ℕ))
  | [] => return []
  | menuId :: menuIds => do
    let count ← zsetCount raised menuId (doubleOfLong fromScore)
      (doubleOfLong (toScoreExclusive - 1))
    let counts ← countEach raised fromScore toScoreExclusive menuIds
    return (menuId, count.getD 0) :: counts

/-- `countByMenuIds`. -/
def countByMenuIds (raised : Long → Option Throwable) (menuIds : List Long)
    (from_ to_ : LocalDateTime) : RedisCall (List (Long × ℕ)) := do
  if (← get).readModelStale then
    throw (.IllegalStateException "Redis 인기 메뉴 read model이 stale 상태입니다.")
  else
    tryCatch (countEach raised (toEpochMicros from_) (toEpochMicros to_) menuIds)
      fun exception => do
        setStale
        throw exception

end PopularMenuRedisCounter

/-- `PopularMenuRedisEventListener.recordAfterCommit`; exceptions are logged. -/
def PopularMenuRedisEventListener.recordAfterCommit (reply : ZaddReply) (event : OrderPaidEvent) :
    RedisCall Unit :=
  tryCatch (PopularMenuRedisCounter.record reply event.orderId event.menuId event.orderedAt)
    fun _ => pure ()

/-- A row of the native query of `OrderRepository.findPopularMenus`. -/
structure PopularMenuProjection where
  menuId : Long
  name : String
  orderCount : ℕ
  deriving DecidableEq, Repr

/-- A popular menu with the number of its orders. -/
structure PopularMenuResponse where
  menuId : Long
  name : String
  orderCount : ℕ
  deriving DecidableEq, Repr

/-- `PopularMenuResponse.from`. -/
def PopularMenuResponse.from (projection : PopularMenuProjection) : PopularMenuResponse :=
  ⟨projection.menuId, projection.name, projection.orderCount⟩

/-- `OrderRepository.findPopularMenus`: join, group, order and limit of the query. -/
def OrderRepository.findPopularMenus (menus : Menus) (orders : List (ℕ × Order))
    (from_ to_ : LocalDateTime) : List PopularMenuProjection :=
  let window := orders.filter fun o => from_ ≤ o.2.createdAt ∧ o.2.createdAt < to_
  let joined := window.flatMap fun o =>
    (menus.rows.filter fun m => m.id = o.2.menuId).map fun m => (m.id, m.name)
  let groups := joined.dedup.map fun g => PopularMenuProjection.mk g.1 g.2 (joined.count g)
  (groups.insertionSort fun a b =>
    b.orderCount < a.orderCount ∨ a.orderCount = b.orderCount ∧ a.menuId ≤ b.menuId).take 3

/-- `MenuRepository.findAllByOrderByIdAsc`. -/
def MenuRepository.findAllByOrderByIdAsc (menus : Menus) : List Menu :=
  menus.rows.insertionSort fun a b => a.id ≤ b.id

namespace PopularMenuService

variable (menus : Menus) (orders : List (ℕ × Order)) (raised : Long → Option Throwable)

/-- `getFromDatabase`. -/
def getFromDatabase (from_ to_ : LocalDateTime) : List PopularMenuResponse :=
  (OrderRepository.findPopularMenus menus orders from_ to_).map PopularMenuResponse.from

/-- `getFromRedis`. -/
def getFromRedis (from_ to_ : LocalDateTime) : RedisCall (List PopularMenuResponse) := do
  let allMenus := MenuRepository.findAllByOrderByIdAsc menus
  let menuIds := allMenus.map Menu.id
  let orderCounts ← PopularMenuRedisCounter.countByMenuIds raised menuIds from_ to_
  if orderCounts.all fun entry => entry.2 = 0 then
    return getFromDatabase menus orders from_ to_
  else
    let responses := allMenus.map fun menu =>
      PopularMenuResponse.mk menu.id menu.name ((orderCounts.lookup menu.id).getD 0)
    let counted := responses.filter fun response => response.orderCount > 0
    let sorted := counted.insertionSort fun a b =>
      b.orderCount < a.orderCount ∨ a.orderCount = b.orderCount ∧ a.menuId ≤ b.menuId
    return sorted.take 3

/-- `getPopularMenus`, when the clock reads `now`. -/
def getPopularMenus (now : Instant) : RedisCall (List PopularMenuResponse) :=
  let to_ := LocalDateTime.ofInstant now
  let from_ := to_.minusDays 7
  tryCatch (getFromRedis menus orders raised from_ to_)
    fun _ => return getFromDatabase menus orders from_ to_

end PopularMenuService

end CoffeeOrder.Shop
