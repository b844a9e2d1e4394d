import CoffeeOrder.Kit.SerialHistory
import CoffeeOrder.Shop.Domain

/-!
# The two transactional services

`PointService.charge` and `OrderService.order` as transaction bodies over the
row-locked database. Identity-generated inserts are issued where `save` is
called; a managed entity that a service has changed is flushed at commit, for
which `UserRepository.flush` stands at the end of each body. `Request.finished`
says once what a body ends with when it runs alone; everything else about the
services is derived from it.
-/

namespace CoffeeOrder.Shop

open Kit

/-- What the services insert. -/
inductive Insertion
  | pointHistory (row : PointHistory)
  | order (row : Order)
  deriving DecidableEq, Repr

/-- The database of the shop: menus are read without a lock, user balances are
read with one, and history and order rows are inserted. -/
@[reducible] def schema : Schema where
  Query := Long
  Answer _ := Option Menu
  Input := Instant
  Key := Long
  Row := Long
  Record := Insertion
  Event := OrderPaidEvent
  Error := Throwable

/-- A method under `@Transactional`. -/
abbrev Transactional := Body schema

/-- `orElseThrow(() -> new BusinessException(code))`. -/
def orElseThrow {α : Type} (code : ErrorCode) : Option α → Transactional α
  | some a => pure a
  | none => .throw (.BusinessException code)

/-- Let an exception of plain Java code end the method. -/
def rethrow {α : Type} : Except Throwable α → Transactional α
  | .ok a => pure a
  | .error e => .throw e

/-- `MenuRepository.findById`, a read without a lock. -/
def MenuRepository.findById (menuId : Long) : Transactional (Option Menu) :=
  Body.ask (S := schema) menuId

/-- `UserRepository.findByIdForUpdate`, under `PESSIMISTIC_WRITE`. -/
def UserRepository.findByIdForUpdate (userId : Long) : Transactional (Option User) := do
  let balance ← Body.lockRow (S := schema) userId
  return balance.map fun balance => ⟨userId, balance⟩

/-- The flush of a managed user whose balance was changed. -/
def UserRepository.flush (user : User) : Transactional Unit :=
  Body.updateRow (S := schema) user.id user.balance

/-- `PointHistoryRepository.save`. -/
def PointHistoryRepository.save (row : PointHistory) : Transactional ℕ :=
  Body.insertRow (S := schema) (.pointHistory row)

/-- `OrderRepository.save`. -/
def OrderRepository.save (row : Order) : Transactional ℕ :=
  Body.insertRow (S := schema) (.order row)

/-- `ApplicationEventPublisher.publishEvent`; the listeners run after commit. -/
def publishEvent (event : OrderPaidEvent) : Transactional Unit :=
  Body.announce (S := schema) event

/-- `Clock.instant`. -/
def clockInstant : Transactional Instant := Body.read (S := schema)

/-- `catch (ArithmeticException exception)` of `PointService.charge`. -/
def catchArithmetic {α : Type} : Except Throwable α → Except Throwable α
  | .error (.ArithmeticException _) => .error (.BusinessException .POINT_BALANCE_OVERFLOW)
  | result => result

section Statements

variable {α : Type}

/-- What was found is the value. -/
@[simp] theorem orElseThrow_some (code : ErrorCode) (a : α) :
    orElseThrow code (some a) = .done a := rfl

/-- What is missing is raised as this error. -/
@[simp] theorem orElseThrow_none (code : ErrorCode) :
    (orElseThrow code none : Transactional α) = .throw (.BusinessException code) := rfl

/-- A value is passed on. -/
@[simp] theorem rethrow_ok (a : α) : rethrow (.ok a) = .done a := rfl

/-- An exception is passed on. -/
@[simp] theorem rethrow_error (e : Throwable) :
    (rethrow (.error e) : Transactional α) = .throw e := rfl

/-- Looking up a menu is one query. -/
@[simp] theorem MenuRepository.findById_bind (menuId : Long)
    (next : Option Menu → Transactional α) :
    MenuRepository.findById menuId >>= next = .query menuId next := rfl

/-- Looking up a user for an update locks its row. -/
@[simp] theorem UserRepository.findByIdForUpdate_bind (userId : Long)
    (next : Option User → Transactional α) :
    UserRepository.findByIdForUpdate userId >>= next =
      .lock userId fun balance => next (balance.map fun balance => ⟨userId, balance⟩) := rfl

/-- Flushing a user writes its balance. -/
@[simp] theorem UserRepository.flush_bind (user : User) (next : Unit → Transactional α) :
    UserRepository.flush user >>= next = .update user.id user.balance (next ()) := rfl

/-- Saving a point history is one insert. -/
@[simp] theorem PointHistoryRepository.save_bind (row : PointHistory)
    (next : ℕ → Transactional α) :
    PointHistoryRepository.save row >>= next = .insert (.pointHistory row) next := rfl

/-- Saving an order is one insert. -/
@[simp] theorem OrderRepository.save_bind (row : Order) (next : ℕ → Transactional α) :
    OrderRepository.save row >>= next = .insert (.order row) next := rfl

/-- Publishing an event puts it into the outbox. -/
@[simp] theorem publishEvent_bind (event : OrderPaidEvent) (next : Unit → Transactional α) :
    publishEvent event >>= next = .publish event (next ()) := rfl

/-- Reading the clock is one input. -/
@[simp] theorem clockInstant_bind (next : Instant → Transactional α) :
    clockInstant >>= next = .input next := rfl

end Statements

/-- `PointService.charge`. -/
def PointService.charge (userId : Long) : Option Long → Transactional ChargePointResponse
  | none => .throw (.BusinessException .INVALID_CHARGE_AMOUNT)
  | some amount =>
    if amount ≤ 0 then .throw (.BusinessException .INVALID_CHARGE_AMOUNT)
    else do
      let user ← orElseThrow .USER_NOT_FOUND (← UserRepository.findByIdForUpdate userId)
      let user ← rethrow (catchArithmetic (user.charge amount))
      let _ ← PointHistoryRepository.save (PointHistory.charge user amount)
      UserRepository.flush user
      return ⟨user.id, user.balance⟩

/-- `OrderService.order`. -/
def OrderService.order (userId menuId : Long) : Transactional OrderResponse := do
  let menu ← orElseThrow .MENU_NOT_FOUND (← MenuRepository.findById menuId)
  let user ← orElseThrow .USER_NOT_FOUND (← UserRepository.findByIdForUpdate userId)
  let price := menu.price
  let user ← rethrow (user.use price)
  let _ ← PointHistoryRepository.save (PointHistory.use user price)
  let orderedAt := LocalDateTime.ofInstant (← clockInstant)
  let orderId ← OrderRepository.save (Order.create user menu price orderedAt)
  publishEvent ⟨orderId, userId, menuId, price, orderedAt⟩
  UserRepository.flush user
  return ⟨orderId, userId, menuId, price, user.balance⟩

/-- A call of one of the two services, with the arguments of the controller. -/
inductive Request
  | charge (userId : Long) (amount : Option Long)
  | order (userId menuId : Long)
  deriving DecidableEq, Repr

/-- The answer to a request. -/
inductive Response
  | charged (response : ChargePointResponse)
  | ordered (response : OrderResponse)
  deriving DecidableEq, Repr

/-- The user whose points the request is about. -/
def Request.userId : Request → Long
  | .charge userId _ | .order userId _ => userId

/-- The transaction a request runs. -/
def Request.body : Request → Transactional Response
  | .charge userId amount => Response.charged <$> PointService.charge userId amount
  | .order userId menuId => Response.ordered <$> OrderService.order userId menuId

section Finished

/-- What an accepted charge leaves in the buffers of its transaction. -/
def chargeBuffers (userId amount balance : Long) (historyId : ℕ) : Buffers schema where
  locked := [userId]
  writes := Function.update (fun _ => none) userId (some balance)
  inserted := [(historyId, .pointHistory ⟨userId, amount, .CHARGE⟩)]
  events := []

/-- What an accepted order leaves in the buffers of its transaction. -/
def orderBuffers (userId menuId price balance : Long) (now : Instant)
    (historyId orderId : ℕ) : Buffers schema where
  locked := [userId]
  writes := Function.update (fun _ => none) userId (some balance)
  inserted := [(historyId, .pointHistory ⟨userId, price, .USE⟩),
    (orderId, .order ⟨userId, menuId, price, .ofInstant now⟩)]
  events := [⟨orderId, userId, menuId, price, .ofInstant now⟩]

/-- A rejected request has changed nothing, and has locked at most `keys`. -/
def rejected (keys : List Long) (e : Throwable) : Finished schema Response :=
  ⟨.error e, { locked := keys }⟩

/-- What a charge ends with when the user's row is `row`. -/
def PointService.chargeFinished (userId : Long) (amount : Option Long) (row : Option Long)
    (historyId : ℕ) : Finished schema Response :=
  match amount with
  | none => rejected [] (.BusinessException .INVALID_CHARGE_AMOUNT)
  | some amount =>
    if amount ≤ 0 then rejected [] (.BusinessException .INVALID_CHARGE_AMOUNT)
    else match row with
      | none => rejected [] (.BusinessException .USER_NOT_FOUND)
      | some balance =>
        match addExact balance amount with
        | none => rejected [userId] (.BusinessException .POINT_BALANCE_OVERFLOW)
        | some balance =>
          ⟨.ok (.charged ⟨userId, balance⟩), chargeBuffers userId amount balance historyId⟩

/-- What an order ends with when the user's row is `row`. -/
def OrderService.orderFinished (menus : Menus) (userId menuId : Long) (row : Option Long)
    (now : Instant) (historyId orderId : ℕ) : Finished schema Response :=
  match menus.findById menuId with
  | none => rejected [] (.BusinessException .MENU_NOT_FOUND)
  | some menu =>
    match row with
    | none => rejected [] (.BusinessException .USER_NOT_FOUND)
    | some balance =>
      match User.use ⟨userId, balance⟩ menu.price with
      | .error e => rejected [userId] e
      | .ok user =>
        ⟨.ok (.ordered ⟨orderId, userId, menuId, menu.price, user.balance⟩),
          orderBuffers userId menuId menu.price user.balance now historyId orderId⟩

/-- What a request ends with when the user's row is `row`, the clock reads `now`
and the generated identifiers are these. -/
def Request.finished (menus : Menus) (row : Option Long) (now : Instant)
    (historyId orderId : ℕ) : Request → Finished schema Response
  | .charge userId amount => PointService.chargeFinished userId amount row historyId
  | .order userId menuId => OrderService.orderFinished menus userId menuId row now historyId orderId

/-- A balance that was used has covered a positive amount. -/
theorem User.use_ok {user user' : User} {amount : Long} (h : user.use amount = .ok user') :
    user'.id = user.id ∧ 0 < amount.toInt ∧ amount.toInt ≤ user.balance.toInt ∧
      user'.balance.toInt = user.balance.toInt - amount.toInt := by
  unfold User.use at h
  split at h
  · simp at h
  · split at h
    · simp at h
    · rename_i hpositive henough
      obtain rfl : _ = user' := by simpa using h
      rw [Int64.le_iff_toInt_le, Int64.toInt_zero] at hpositive
      rw [Int64.lt_iff_toInt_lt] at henough
      have hsub := toInt_sub_of_le (x := user.balance) (y := amount) (by omega) (by omega)
      exact ⟨rfl, by omega, by omega, hsub⟩

/-- Running alone, a charge ends as `chargeFinished` says. -/
theorem PointService.charge_completes {menus : Menus} {rows : Long → Option Long}
    {userId : Long} {amount : Option Long} {f : Finished schema Response} :
    (Request.charge userId amount).body.Completes menus.findById rows {} f ↔
      ∃ historyId, f = chargeFinished userId amount (rows userId) historyId := by
  cases amount with
  | none => simp [Request.body, charge, chargeFinished, rejected, Body.Completes]
  | some amount =>
    by_cases hamount : amount ≤ 0
    · simp [Request.body, charge, chargeFinished, rejected, Body.Completes, hamount]
    · cases hrow : rows userId with
      | none =>
        simp [Request.body, charge, chargeFinished, rejected, Body.Completes, hamount, hrow,
          Buffers.view, Buffers.noteLock]
      | some balance =>
        cases hadd : addExact balance amount with
        | none =>
          simp [Request.body, charge, chargeFinished, rejected, Body.Completes, hamount, hrow, hadd,
            Buffers.view, Buffers.noteLock, User.charge, catchArithmetic]
        | some balance' =>
          simp [Request.body, charge, chargeFinished, Body.Completes, hamount, hrow, hadd,
            Buffers.view, Buffers.noteLock, User.charge, catchArithmetic, PointHistory.charge,
            chargeBuffers, Buffers.write, Buffers.insert]

/-- Running alone, an order ends as `orderFinished` says. -/
theorem OrderService.order_completes {menus : Menus} {rows : Long → Option Long}
    {userId menuId : Long} {f : Finished schema Response} :
    (Request.order userId menuId).body.Completes menus.findById rows {} f ↔
      ∃ now historyId orderId,
        f = orderFinished menus userId menuId (rows userId) now historyId orderId := by
  cases hmenu : menus.findById menuId with
  | none => simp [Request.body, order, orderFinished, rejected, Body.Completes, hmenu]
  | some menu =>
    have hid : menu.id = menuId := (Menus.findById_eq_some hmenu).2
    cases hrow : rows userId with
    | none =>
      simp [Request.body, order, orderFinished, rejected, Body.Completes, hmenu, hrow,
        Buffers.view, Buffers.noteLock]
    | some balance =>
      cases huse : User.use ⟨userId, balance⟩ menu.price with
      | error e =>
        simp [Request.body, order, orderFinished, rejected, Body.Completes, hmenu, hrow, huse,
          Buffers.view, Buffers.noteLock]
      | ok user =>
        have huser : user.id = userId := (User.use_ok huse).1
        rw [exists_comm]
        simp [Request.body, order, orderFinished, Body.Completes, hmenu, hrow, huse, hid, huser,
          Buffers.view, Buffers.noteLock, Buffers.write, Buffers.insert, Buffers.publish,
          PointHistory.use, Order.create, orderBuffers]

/-- **Solo runs.** Running alone, a request ends as `finished` says, for some
clock reading and some generated identifiers. -/
theorem Request.completes_iff {menus : Menus} {rows : Long → Option Long} {q : Request}
    {f : Finished schema Response} :
    q.body.Completes menus.findById rows {} f ↔
      ∃ now historyId orderId, f = q.finished menus (rows q.userId) now historyId orderId := by
  cases q with
  | charge userId amount =>
    rw [PointService.charge_completes]
    constructor
    · rintro ⟨historyId, hf⟩
      exact ⟨default, historyId, 0, hf⟩
    · rintro ⟨_, historyId, _, hf⟩
      exact ⟨historyId, hf⟩
  | order userId menuId => exact OrderService.order_completes

/-- The three ways a request can end, with what is known in each. -/
inductive Request.Ends (menus : Menus) (row : Option Long) (now : Instant)
    (historyId orderId : ℕ) : Request → Finished schema Response → Prop
  | rejected {q keys e} : Ends menus row now historyId orderId q (rejected keys e)
  | charged {userId amount balance balance'} (hrow : row = some balance)
      (hamount : 0 < amount.toInt) (hadd : balance'.toInt = balance.toInt + amount.toInt) :
      Ends menus row now historyId orderId (.charge userId (some amount))
        ⟨.ok (.charged ⟨userId, balance'⟩), chargeBuffers userId amount balance' historyId⟩
  | ordered {userId menuId menu balance balance'} (hmenu : menus.findById menuId = some menu)
      (hrow : row = some balance) (hprice : 0 < menu.price.toInt)
      (henough : menu.price.toInt ≤ balance.toInt)
      (hsub : balance'.toInt = balance.toInt - menu.price.toInt) :
      Ends menus row now historyId orderId (.order userId menuId)
        ⟨.ok (.ordered ⟨orderId, userId, menuId, menu.price, balance'⟩),
          orderBuffers userId menuId menu.price balance' now historyId orderId⟩

/-- Every request ends in one of these ways. -/
theorem Request.ends (menus : Menus) (row : Option Long) (now : Instant)
    (historyId orderId : ℕ) (q : Request) :
    Request.Ends menus row now historyId orderId q
      (q.finished menus row now historyId orderId) := by
  cases q with
  | charge userId amount =>
    simp only [Request.finished, PointService.chargeFinished]
    cases amount with
    | none => exact .rejected
    | some amount =>
      by_cases hamount : amount ≤ 0
      · simpa only [if_pos hamount] using .rejected
      · cases row with
        | none => simpa only [if_neg hamount] using .rejected
        | some balance =>
          cases hadd : addExact balance amount with
          | none => simpa only [if_neg hamount, hadd] using .rejected
          | some balance' =>
            rw [Int64.le_iff_toInt_le, Int64.toInt_zero, not_le] at hamount
            simpa only [Int64.le_iff_toInt_le, Int64.toInt_zero, not_le.mpr hamount, if_false, hadd]
              using .charged rfl hamount (addExact_eq_some.mp hadd)
  | order userId menuId =>
    simp only [Request.finished, OrderService.orderFinished]
    cases hmenu : menus.findById menuId with
    | none => exact .rejected
    | some menu =>
      cases row with
      | none => exact .rejected
      | some balance =>
        cases huse : User.use ⟨userId, balance⟩ menu.price with
        | error e => simpa only [huse] using .rejected
        | ok user =>
          obtain ⟨-, hprice, henough, hsub⟩ := User.use_ok huse
          simpa only [huse] using .ordered hmenu rfl hprice henough hsub

end Finished

end CoffeeOrder.Shop
