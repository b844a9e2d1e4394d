import CoffeeOrder.Shop.Deliveries

/-!
# An order is all or nothing

One call of `OrderService.order` with everything that can fail in it: the two
lookups, the checks of `User.use`, the two inserts, the commit, and the two
after-commit listeners. A call that fails before its commit leaves the database
alone and triggers no listener; a committed call triggers each listener once,
and nobody sees their failures.
-/

namespace CoffeeOrder.Shop

open Kit

/-- The after-commit listeners of a paid order. -/
inductive Listener
  | recordAfterCommit
  | sendAfterCommit
  deriving DecidableEq, Repr

/-- What the infrastructure does to one call. -/
structure Faults where
  /-- Inserts that are refused, and a refused commit. -/
  refusals : Refusals schema
  zadd : ZaddReply
  send : SendReply
  /-- Which listener Spring calls first. -/
  sendFirst : Bool

/-- What a call leaves behind, and the listeners it has triggered. -/
structure Served where
  response : Except Throwable OrderResponse
  store : Store schema
  counter : CounterState
  broker : Broker
  triggered : List (Listener × OrderPaidEvent)

section Serve

variable (menus : Menus) (partitionFor : String → ℕ) (faults : Faults) (now : Instant)

/-- Both listeners run. The one in the committing thread would pass an exception on
to the caller; the asynchronous one cannot. -/
def Served.deliver (served : Served) (event : OrderPaidEvent) : Served :=
  let record := (PopularMenuRedisEventListener.recordAfterCommit faults.zadd event).exec
    served.counter
  let send := (OrderDataPlatformEventListener.sendAfterCommit partitionFor faults.send event).exec
    served.broker
  { response := match record.1 with
      | .ok () => served.response
      | .error e => .error e
    store := served.store
    counter := record.2
    broker := send.2
    triggered := served.triggered ++
      if faults.sendFirst then [(.sendAfterCommit, event), (.recordAfterCommit, event)]
      else [(.recordAfterCommit, event), (.sendAfterCommit, event)] }

/-- A call of `OrderService.order` that nothing else interferes with. -/
def OrderService.serve (st : Store schema) (nextId : ℕ) (counter : CounterState) (broker : Broker)
    (userId menuId : Long) : Served :=
  match st.transact menus.findById now faults.refusals nextId
    (OrderService.order userId menuId) with
  | (.error e, st, _) => ⟨.error e, st, counter, broker, []⟩
  | (.ok response, st, events) =>
    events.foldl (Served.deliver partitionFor faults) ⟨.ok response, st, counter, broker, []⟩

end Serve

/-- None of the failures before and at the commit happens. -/
structure CanCommit (menus : Menus) (refusals : Refusals schema) (now : Instant)
    (st : Store schema) (userId menuId : Long) (menu : Menu) (balance : Long) : Prop where
  menu_found : menus.findById menuId = some menu
  user_found : st.rows userId = some balance
  price_pos : 0 < menu.price.toInt
  enough : menu.price.toInt ≤ balance.toInt
  history_accepted : refusals.insert (.pointHistory ⟨userId, menu.price, .USE⟩) = none
  order_accepted : refusals.insert (.order ⟨userId, menuId, menu.price, .ofInstant now⟩) = none
  commit_accepted : refusals.commit = none

/-- Nothing has happened, and the caller gets an exception. -/
structure Untouched (st : Store schema) (counter : CounterState) (broker : Broker)
    (served : Served) : Prop where
  store_eq : served.store = st
  triggered_eq : served.triggered = []
  counter_eq : served.counter = counter
  broker_eq : served.broker = broker
  failed : ∃ e, served.response = .error e

/-- One balance decrease, one USE row and one order row with the same price are
committed, and each listener was triggered once with that order. -/
structure Committed (st : Store schema) (nextId : ℕ) (now : Instant) (userId menuId price : Long)
    (balance balance' : Long) (served : Served) : Prop where
  decrease : balance'.toInt = balance.toInt - price.toInt
  rows_eq : served.store.rows = Function.update st.rows userId (some balance')
  log_eq : served.store.log = st.log ++ [(nextId, .pointHistory ⟨userId, price, .USE⟩),
    (nextId + 1, .order ⟨userId, menuId, price, .ofInstant now⟩)]
  response_eq : served.response = .ok ⟨nextId + 1, userId, menuId, price, balance'⟩
  triggered_perm : served.triggered.Perm
    [(.recordAfterCommit, ⟨nextId + 1, userId, menuId, price, .ofInstant now⟩),
      (.sendAfterCommit, ⟨nextId + 1, userId, menuId, price, .ofInstant now⟩)]

section Cases

variable {menus : Menus} {faults : Faults} {now : Instant} {st : Store schema} {nextId : ℕ}
  {userId menuId : Long}

/-- A balance that covers the amount is reduced by it. -/
theorem User.use_of_le {user : User} {amount : Long} (hpos : 0 < amount.toInt)
    (hle : amount.toInt ≤ user.balance.toInt) :
    user.use amount = .ok { user with balance := user.balance - amount } := by
  have hamount : ¬amount ≤ 0 := by
    rw [Int64.le_iff_toInt_le, Int64.toInt_zero]
    omega
  have hbalance : ¬user.balance < amount := by
    rw [Int64.lt_iff_toInt_lt]
    omega
  simp [User.use, hamount, hbalance]

/-- A call that can commit commits the buffers of an order. -/
theorem CanCommit.transact {menu : Menu} {balance : Long} {refusals : Refusals schema}
    (h : CanCommit menus refusals now st userId menuId menu balance) :
    st.transact menus.findById now refusals nextId (OrderService.order userId menuId) =
      (.ok ⟨nextId + 1, userId, menuId, menu.price, balance - menu.price⟩,
        st.apply (orderBuffers userId menuId menu.price (balance - menu.price) now nextId
          (nextId + 1)),
        [⟨nextId + 1, userId, menuId, menu.price, .ofInstant now⟩]) := by
  have hid : menu.id = menuId := (Menus.findById_eq_some h.menu_found).2
  have huse : User.use ⟨userId, balance⟩ menu.price = .ok ⟨userId, balance - menu.price⟩ :=
    User.use_of_le h.price_pos h.enough
  simp [Store.transact, OrderService.order, Body.exec, h.menu_found, h.user_found, huse, hid,
    h.history_accepted, h.order_accepted, h.commit_accepted, Buffers.view, Buffers.noteLock,
    Buffers.write, Buffers.insert, Buffers.publish, PointHistory.use, Order.create, orderBuffers]

/-- A call that cannot commit is rolled back. -/
theorem transact_of_not_canCommit (nextId : ℕ) {refusals : Refusals schema}
    (h : ∀ menu balance, ¬CanCommit menus refusals now st userId menuId menu balance) :
    ∃ e, st.transact menus.findById now refusals nextId (OrderService.order userId menuId) =
      (.error e, st, []) := by
  cases hmenu : menus.findById menuId with
  | none => simp [Store.transact, OrderService.order, Body.exec, hmenu]
  | some menu =>
    have hid : menu.id = menuId := (Menus.findById_eq_some hmenu).2
    cases hrow : st.rows userId with
    | none => simp [Store.transact, OrderService.order, Body.exec, hmenu, hrow, Buffers.view]
    | some balance =>
      cases huse : User.use ⟨userId, balance⟩ menu.price with
      | error e =>
        simp [Store.transact, OrderService.order, Body.exec, hmenu, hrow, huse, Buffers.view]
      | ok user =>
        obtain ⟨huser, hpos, henough, -⟩ := User.use_ok huse
        cases hhistory : refusals.insert (.pointHistory ⟨userId, menu.price, .USE⟩) with
        | some e =>
          simp [Store.transact, OrderService.order, Body.exec, hmenu, hrow, huse, Buffers.view,
            PointHistory.use, huser, hhistory]
        | none =>
          cases horder : refusals.insert (.order ⟨userId, menuId, menu.price, .ofInstant now⟩) with
          | some e =>
            simp [Store.transact, OrderService.order, Body.exec, hmenu, hrow, huse, Buffers.view,
              PointHistory.use, Order.create, huser, hid, hhistory, horder]
          | none =>
            cases hcommit : refusals.commit with
            | some e =>
              simp [Store.transact, OrderService.order, Body.exec, hmenu, hrow, huse, Buffers.view,
                PointHistory.use, Order.create, huser, hid, hhistory, horder, hcommit]
            | none =>
              exact absurd ⟨hmenu, hrow, hpos, henough, hhistory, horder, hcommit⟩ (h menu balance)

/-- **All or nothing, and paid orders only.** From every database state, a call of
`OrderService.order` that meets any of the failures leaves everything as it was and
triggers no listener; any other call commits one decrease, one USE row and one
order row of the same price and triggers each listener once with that order, and
its response and rows do not depend on how the listeners fare. In every reachable
state of the application, every member in Redis and every message sent belongs to
a committed order of its own. -/
theorem order_all_or_nothing :
    (∀ (menus : Menus) (partitionFor : String → ℕ) (faults : Faults) (now : Instant)
      (st : Store schema) (nextId : ℕ) (counter : CounterState) (broker : Broker)
      (userId menuId : Long),
      let served := OrderService.serve menus partitionFor faults now st nextId counter broker userId
        menuId
      (∀ menu balance, CanCommit menus faults.refusals now st userId menuId menu balance →
        (∃ balance', Committed st nextId now userId menuId menu.price balance balance' served) ∧
        ∀ zadd send sendFirst,
          let served' := OrderService.serve menus partitionFor
            ⟨faults.refusals, zadd, send, sendFirst⟩ now st nextId counter broker userId menuId
          served'.response = served.response ∧ served'.store = served.store) ∧
      ((∀ menu balance, ¬CanCommit menus faults.refusals now st userId menuId menu balance) →
        Untouched st counter broker served)) ∧
    ∀ (Inst I : Type) [DecidableEq Inst] [DecidableEq I] (d : Deployment Inst I)
      (store : Store schema) (nextId : ℕ) (s : Cluster Inst I),
      Reachable (Cluster.step d) (Cluster.start d store nextId) s → s.OwnOrders := by
  refine ⟨?_, fun _ _ _ _ _ _ _ _ h => Cluster.ownOrders h⟩
  intro menus partitionFor faults now st nextId counter broker userId menuId served
  constructor
  · intro menu balance hcan
    have hserve : ∀ zadd send sendFirst, OrderService.serve menus partitionFor
        ⟨faults.refusals, zadd, send, sendFirst⟩ now st nextId counter broker userId menuId =
        Served.deliver partitionFor ⟨faults.refusals, zadd, send, sendFirst⟩
          ⟨.ok ⟨nextId + 1, userId, menuId, menu.price, balance - menu.price⟩,
            st.apply (orderBuffers userId menuId menu.price (balance - menu.price) now nextId
              (nextId + 1)), counter, broker, []⟩
          ⟨nextId + 1, userId, menuId, menu.price, .ofInstant now⟩ := by
      intro zadd send sendFirst
      simp only [OrderService.serve, hcan.transact, List.foldl_cons, List.foldl_nil]
    have hserved : served = _ := hserve faults.zadd faults.send faults.sendFirst
    constructor
    · refine ⟨balance - menu.price, ?_, ?_, ?_, ?_, ?_⟩
      · exact toInt_sub_of_le hcan.price_pos.le hcan.enough
      · rw [hserved]
        exact apply_rows_update _ _ _ rfl
      · rw [hserved]
        rfl
      · rw [hserved, Served.deliver, recordAfterCommit_exec]
      · rw [hserved, Served.deliver]
        cases faults.sendFirst
        · exact List.Perm.refl _
        · exact List.Perm.swap ..
    · intro zadd send sendFirst
      rw [hserve, hserved]
      simp only [Served.deliver, recordAfterCommit_exec, and_self]
  · intro hcannot
    obtain ⟨e, he⟩ := transact_of_not_canCommit nextId hcannot
    have hserved : served = ⟨.error e, st, counter, broker, []⟩ := by
      simp only [served, OrderService.serve, he]
    rw [hserved]
    exact ⟨rfl, rfl, rfl, rfl, e, rfl⟩

/-- One menu, which costs less than the points of user 1. -/
def oneMenu : Menus := ⟨[⟨1, "아메리카노", 4500⟩], by decide⟩

/-- User 1 with 10000 points. -/
def oneCustomer : Store schema := ⟨fun userId => if userId = 1 then some 10000 else none, []⟩

/-- Both listeners meet an exception. -/
def bothListenersFail : Faults :=
  ⟨{}, .raised false (.DataAccessException "timeout"), .failed, true⟩

/-- An order that commits although both of its listeners fail, and one of a menu that
does not exist. -/
theorem order_all_or_nothing_listeners_fail :
    (∃ balance', Committed oneCustomer 1 default 1 1 4500 10000 balance'
      (OrderService.serve oneMenu (fun _ => 0) bothListenersFail default oneCustomer 1
        ⟨false, fun _ => []⟩ ⟨fun _ => [], []⟩ 1 1)) ∧
    Untouched oneCustomer ⟨false, fun _ => []⟩ ⟨fun _ => [], []⟩
      (OrderService.serve oneMenu (fun _ => 0) bothListenersFail default oneCustomer 1
        ⟨false, fun _ => []⟩ ⟨fun _ => [], []⟩ 1 2) ∧
    (Cluster.start ⟨oneMenu, fun _ => .order 1 1, id, 8, fun _ => 0⟩ oneCustomer 1 :
      Cluster Unit Unit).OwnOrders := by
  refine ⟨?_, ?_, ?_⟩
  · refine ((order_all_or_nothing.1 oneMenu (fun _ => 0) bothListenersFail default oneCustomer 1
      ⟨false, fun _ => []⟩ ⟨fun _ => [], []⟩ 1 1).1 ⟨1, "아메리카노", 4500⟩ 10000 ?_).1
    exact ⟨rfl, rfl, by decide, by decide, rfl, rfl, rfl⟩
  · refine (order_all_or_nothing.1 oneMenu (fun _ => 0) bothListenersFail default oneCustomer 1
      ⟨false, fun _ => []⟩ ⟨fun _ => [], []⟩ 1 2).2 fun menu _ hcan => ?_
    have hmissing : oneMenu.findById 2 = none := rfl
    exact nomatch hmissing.symm.trans hcan.menu_found
  · exact order_all_or_nothing.2 Unit Unit _ _ _ _ (Reachable.refl _ _)

end Cases

end CoffeeOrder.Shop
