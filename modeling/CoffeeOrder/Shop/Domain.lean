import Mathlib.Data.List.Nodup
import Mathlib.Tactic.NormNum

/-!
# Entities, messages and errors of the coffee shop

The values the services pass around, with the fields and checks of the Java
classes. A Java `Long` is a 64-bit two's complement integer, so balances and
prices are `Int64`; exact sums are taken of their integer values. Identifiers
that MySQL generates are natural numbers.
-/

namespace CoffeeOrder.Shop

/-- The Java type of identifiers, prices and balances. -/
abbrev Long := Int64

/-- `Math.addExact` on `long`: no result when the sum leaves the 64-bit range. -/
def addExact (x y : Long) : Option Long :=
  if -2 ^ 63 ≤ x.toInt + y.toInt ∧ x.toInt + y.toInt < 2 ^ 63 then some (x + y) else none

/-- A sum that stays in the range of a `long` does not wrap around. -/
theorem toInt_eq_of_range {z : Long} {n : ℤ} (hlow : -2 ^ 63 ≤ n) (hhigh : n < 2 ^ 63)
    (h : z.toInt = n.bmod (2 ^ 64)) : z.toInt = n := by
  rw [h]
  exact Int.bmod_eq_of_le (by norm_num; omega) (by norm_num; omega)

/-- `Math.addExact` returns exactly the values whose integer is the sum. -/
theorem addExact_eq_some {x y z : Long} : addExact x y = some z ↔ z.toInt = x.toInt + y.toInt := by
  have hadd : (x + y).toInt = (x.toInt + y.toInt).bmod (2 ^ 64) := Int64.toInt_add x y
  unfold addExact
  constructor
  · intro h
    obtain ⟨⟨hlow, hhigh⟩, hz⟩ := Option.ite_none_right_eq_some.mp h
    obtain rfl := Option.some.inj hz
    exact toInt_eq_of_range hlow hhigh hadd
  · intro h
    have hlow := z.le_toInt
    have hhigh := z.toInt_lt
    rw [h] at hlow hhigh
    have hz : x + y = z := Int64.toInt_inj.mp ((toInt_eq_of_range hlow hhigh hadd).trans h.symm)
    rw [if_pos ⟨hlow, hhigh⟩, hz]

/-- Subtracting a smaller nonnegative amount does not wrap around. -/
theorem toInt_sub_of_le {x y : Long} (hy : 0 ≤ y.toInt) (hle : y.toInt ≤ x.toInt) :
    (x - y).toInt = x.toInt - y.toInt := by
  have hx := x.toInt_lt
  exact toInt_eq_of_range (by omega) (by omega) (Int64.toInt_sub x y)

/-- Error codes of `BusinessException`. -/
inductive ErrorCode
  | MENU_NOT_FOUND
  | USER_NOT_FOUND
  | INSUFFICIENT_POINT
  | INVALID_CHARGE_AMOUNT
  | POINT_BALANCE_OVERFLOW
  deriving DecidableEq, Repr

/-- The runtime exceptions of the services and of the infrastructure they call. -/
inductive Throwable
  | BusinessException (errorCode : ErrorCode)
  | IllegalArgumentException (message : String)
  | IllegalStateException (message : String)
  | ArithmeticException (message : String)
  | DataAccessException (message : String)
  deriving DecidableEq, Repr

/-- A reading of `Clock.systemUTC`, taken between 1970 and 2255. Up to there a
number of microseconds is exact in a `long` and in a `double`. -/
structure Instant where
  epochSecond : ℕ
  nano : ℕ
  epochSecond_lt : epochSecond < 9007199254
  /-- The nanosecond of the second. -/
  nano_lt : nano < 1000000000
  deriving DecidableEq

instance : Inhabited Instant := ⟨⟨0, 0, by decide, by decide⟩⟩

/-- A UTC date and time with the microsecond precision of `DATETIME(6)`. -/
structure LocalDateTime where
  epochMicros : ℤ
  deriving DecidableEq, Repr

/-- `LocalDateTime.ofInstant(instant.truncatedTo(MICROS), UTC)`. -/
def LocalDateTime.ofInstant (i : Instant) : LocalDateTime :=
  ⟨i.epochSecond * 1000000 + (i.nano / 1000 : ℕ)⟩

/-- A row of `menus`. -/
structure Menu where
  id : Long
  name : String
  price : Long
  deriving DecidableEq, Repr

/-- The table `menus`. No operation of the application writes it. -/
structure Menus where
  rows : List Menu
  /-- The primary key. -/
  nodup : (rows.map Menu.id).Nodup

/-- `MenuRepository.findById`. -/
def Menus.findById (menus : Menus) (menuId : Long) : Option Menu :=
  menus.rows.find? fun menu => menu.id = menuId

/-- A menu that is found is in the table and has that id. -/
theorem Menus.findById_eq_some {menus : Menus} {menuId : Long} {menu : Menu}
    (h : menus.findById menuId = some menu) : menu ∈ menus.rows ∧ menu.id = menuId :=
  ⟨List.mem_of_find?_eq_some h, by simpa using List.find?_some h⟩

/-- A row of `users` as the persistence context holds it. -/
structure User where
  id : Long
  balance : Long
  deriving DecidableEq, Repr

/-- `User.charge`. -/
def User.charge (user : User) (amount : Long) : Except Throwable User :=
  match addExact user.balance amount with
  | some balance => .ok { user with balance := balance }
  | none => .error (.ArithmeticException "long overflow")

/-- `User.use`. -/
def User.use (user : User) (amount : Long) : Except Throwable User :=
  if amount ≤ 0 then
    .error (.IllegalArgumentException "사용 포인트는 0보다 커야 합니다.")
  else if user.balance < amount then
    .error (.BusinessException .INSUFFICIENT_POINT)
  else
    .ok { user with balance := user.balance - amount }

/-- The kinds of a point history. -/
inductive PointHistoryType
  | CHARGE
  | USE
  deriving DecidableEq, Repr

/-- A row of `point_history` without its generated columns. -/
structure PointHistory where
  userId : Long
  amount : Long
  type : PointHistoryType
  deriving DecidableEq, Repr

/-- `PointHistory.charge`. -/
def PointHistory.charge (user : User) (amount : Long) : PointHistory := ⟨user.id, amount, .CHARGE⟩

/-- `PointHistory.use`. -/
def PointHistory.use (user : User) (amount : Long) : PointHistory := ⟨user.id, amount, .USE⟩

/-- A row of `orders` without its generated identifier. -/
structure Order where
  userId : Long
  menuId : Long
  price : Long
  createdAt : LocalDateTime
  deriving DecidableEq, Repr

/-- `Order.create`. -/
def Order.create (user : User) (menu : Menu) (price : Long) (createdAt : LocalDateTime) : Order :=
  ⟨user.id, menu.id, price, createdAt⟩

/-- The event published inside the order transaction. -/
structure OrderPaidEvent where
  orderId : ℕ
  userId : Long
  menuId : Long
  paymentAmount : Long
  orderedAt : LocalDateTime
  deriving DecidableEq, Repr

/-- The message sent to the data platform. -/
structure OrderDataMessage where
  userId : Long
  menuId : Long
  paymentAmount : Long
  deriving DecidableEq, Repr

/-- The answer to an order. -/
structure OrderResponse where
  orderId : ℕ
  userId : Long
  menuId : Long
  price : Long
  remainingBalance : Long
  deriving DecidableEq, Repr

/-- The answer to a charge. -/
structure ChargePointResponse where
  userId : Long
  balance : Long
  deriving DecidableEq, Repr

end CoffeeOrder.Shop
