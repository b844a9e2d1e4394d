import CoffeeOrder.Shop.Services
import Mathlib.Algebra.BigOperators.Group.List.Basic
import Mathlib.Tactic.Abel

/-!
# The point ledger

Balances, point history and orders tell one story: a user's balance is what it
was at the start plus the charges minus the uses, and the uses are the orders.
One request keeps this on the store it runs on alone (`Balanced.finish`); the
serial history behind an interleaving carries it to every reachable state.
-/

namespace CoffeeOrder.Shop

open Kit

/-- The history rows among inserted rows, with their identifiers. -/
def pointHistoryRows (log : List (ℕ × Insertion)) : List (ℕ × PointHistory) :=
  log.filterMap fun entry =>
    match entry.2 with
    | .pointHistory row => some (entry.1, row)
    | .order _ => none

/-- The orders among inserted rows, with their identifiers. -/
def orderRows (log : List (ℕ × Insertion)) : List (ℕ × Order) :=
  log.filterMap fun entry =>
    match entry.2 with
    | .pointHistory _ => none
    | .order row => some (entry.1, row)

/-- The table `point_history` of a committed store. -/
def pointHistoryTable (st : Store schema) : List (ℕ × PointHistory) := pointHistoryRows st.log

/-- The table `orders` of a committed store. -/
def ordersTable (st : Store schema) : List (ℕ × Order) := orderRows st.log

section Tables

variable (st : Store schema) (userId : Long)

/-- The amounts of a user's history rows of one type. -/
def historyAmounts (type : PointHistoryType) : List ℤ :=
  ((pointHistoryTable st).filter fun entry => entry.2.userId = userId ∧ entry.2.type = type).map
    fun entry => entry.2.amount.toInt

/-- The prices of a user's orders. -/
def orderPrices : List ℤ :=
  ((ordersTable st).filter fun entry => entry.2.userId = userId).map fun entry =>
    entry.2.price.toInt

/-- What the three tables say about one user fits together. -/
structure Balanced (initial : Long → Option Long) : Prop where
  /-- Users are neither created nor removed. -/
  exists_iff : st.rows userId = none ↔ initial userId = none
  /-- The balance is the initial one plus the charges minus the uses. -/
  balance_eq : ∀ before after, initial userId = some before → st.rows userId = some after →
    after.toInt = before.toInt + (historyAmounts st userId .CHARGE).sum -
      (historyAmounts st userId .USE).sum
  balance_range : ∀ balance, st.rows userId = some balance →
    0 ≤ balance.toInt ∧ balance.toInt ≤ 2 ^ 63 - 1
  /-- There is one USE row for each order. -/
  count_eq : (historyAmounts st userId .USE).length = (orderPrices st userId).length
  /-- The uses add up to the prices of the orders. -/
  sum_eq : (historyAmounts st userId .USE).sum = (orderPrices st userId).sum

end Tables

section Step

variable {st : Store schema} {initial : Long → Option Long} {user userId : Long}

/-- With nothing recorded, nonnegative balances are balanced. -/
theorem balanced_initial (h : ∀ balance, initial user = some balance → 0 ≤ balance.toInt) :
    Balanced ⟨initial, []⟩ user initial where
  exists_iff := Iff.rfl
  balance_eq before after hbefore hafter := by
    obtain rfl : before = after := Option.some.inj (hbefore.symm.trans hafter)
    simp [historyAmounts, pointHistoryTable, pointHistoryRows]
  balance_range balance hbalance := by
    have := balance.toInt_lt
    exact ⟨h balance hbalance, by omega⟩
  count_eq := rfl
  sum_eq := rfl

/-- The rows of a store after new balances are written for one user. -/
theorem apply_rows_update (st : Store schema) (buf : Buffers schema) (balance : Long)
    (h : buf.writes = Function.update (fun _ => none) userId (some balance)) :
    (st.apply buf).rows = Function.update st.rows userId (some balance) := by
  funext key
  by_cases hkey : key = userId
  · simp [Store.apply, Buffers.view, h, hkey]
  · simp [Store.apply, Buffers.view, h, hkey]

/-- A commit that changes one user's balance keeps the ledger if the balance moves
by the charges and uses it records, and the uses are the prices of its orders. -/
theorem Balanced.apply {buf : Buffers schema} {balance balance' : Long} (charges uses : List ℤ)
    (hbal : Balanced st user initial) (hrow : st.rows userId = some balance)
    (hwrites : buf.writes = Function.update (fun _ => none) userId (some balance'))
    (hcharges : historyAmounts (st.apply buf) user .CHARGE =
      historyAmounts st user .CHARGE ++ if userId = user then charges else [])
    (huses : historyAmounts (st.apply buf) user .USE =
      historyAmounts st user .USE ++ if userId = user then uses else [])
    (hprices : orderPrices (st.apply buf) user =
      orderPrices st user ++ if userId = user then uses else [])
    (hbalance : balance'.toInt = balance.toInt + charges.sum - uses.sum)
    (hnonneg : 0 ≤ balance'.toInt) : Balanced (st.apply buf) user initial := by
  have hrows := apply_rows_update st buf balance' hwrites
  have hcount := hbal.count_eq
  have hsum := hbal.sum_eq
  by_cases huser : userId = user
  · subst huser
    have hbound := balance'.toInt_lt
    constructor
    · simp [hrows, ← hbal.exists_iff, hrow]
    · intro before after hbefore hafter
      obtain rfl : balance' = after := by simpa [hrows] using hafter
      have hold := hbal.balance_eq before balance hbefore hrow
      simp only [hcharges, huses, if_true, List.sum_append]
      omega
    · intro after hafter
      obtain rfl : balance' = after := by simpa [hrows] using hafter
      exact ⟨hnonneg, by omega⟩
    · simp [huses, hprices, hcount]
    · simp [huses, hprices, hsum]
  · have hsame : (st.apply buf).rows user = st.rows user := by
      rw [hrows]
      exact Function.update_of_ne (Ne.symm huser) ..
    rw [if_neg huser, List.append_nil] at hcharges huses hprices
    constructor
    · rw [hsame]
      exact hbal.exists_iff
    · rw [hsame, hcharges, huses]
      exact hbal.balance_eq
    · rw [hsame]
      exact hbal.balance_range
    · rw [huses, hprices]
      exact hcount
    · rw [huses, hprices]
      exact hsum

/-- A committed charge keeps the ledger. -/
theorem Balanced.charge {amount balance balance' : Long} {historyId : ℕ}
    (hbal : Balanced st user initial) (hrow : st.rows userId = some balance)
    (hnonneg : 0 ≤ balance.toInt) (hamount : 0 < amount.toInt)
    (hadd : balance'.toInt = balance.toInt + amount.toInt) :
    Balanced (st.apply (chargeBuffers userId amount balance' historyId)) user initial := by
  refine hbal.apply [amount.toInt] [] hrow rfl ?_ ?_ ?_
    (by simpa using hadd) (by omega)
  · by_cases huser : userId = user <;>
      simp [historyAmounts, pointHistoryTable, pointHistoryRows, Store.apply, chargeBuffers, huser]
  · simp [historyAmounts, pointHistoryTable, pointHistoryRows, Store.apply, chargeBuffers]
  · simp [orderPrices, ordersTable, orderRows, Store.apply, chargeBuffers]

/-- A committed order keeps the ledger. -/
theorem Balanced.order {menuId price balance balance' : Long} {now : Instant}
    {historyId orderId : ℕ} (hbal : Balanced st user initial)
    (hrow : st.rows userId = some balance) (henough : price.toInt ≤ balance.toInt)
    (hsub : balance'.toInt = balance.toInt - price.toInt) :
    Balanced (st.apply (orderBuffers userId menuId price balance' now historyId orderId)) user
      initial := by
  refine hbal.apply [] [price.toInt] hrow rfl ?_ ?_ ?_
    (by simpa using hsub) (by omega)
  · simp [historyAmounts, pointHistoryTable, pointHistoryRows, Store.apply, orderBuffers]
  · by_cases huser : userId = user <;>
      simp [historyAmounts, pointHistoryTable, pointHistoryRows, Store.apply, orderBuffers, huser]
  · by_cases huser : userId = user <;>
      simp [orderPrices, ordersTable, orderRows, Store.apply, orderBuffers, huser]

end Step

/-- **Step lemma.** Whatever a request ends with, it keeps the ledgers of all users. -/
theorem Balanced.finish {menus : Menus} {st : Store schema} {initial : Long → Option Long}
    (hbal : ∀ user, Balanced st user initial) (q : Request) (now : Instant)
    (historyId orderId : ℕ) (user : Long) :
    Balanced (st.finish (q.finished menus (st.rows q.userId) now historyId orderId)) user
      initial := by
  have hends := q.ends menus (st.rows q.userId) now historyId orderId
  generalize q.finished menus (st.rows q.userId) now historyId orderId = f at hends
  cases hends with
  | rejected => exact hbal user
  | charged hrow hamount hadd =>
    exact (hbal user).charge hrow ((hbal _).balance_range _ hrow).1 hamount hadd
  | ordered _ hrow _ henough hsub => exact (hbal user).order hrow henough hsub

/-- **Ledger invariant.** However the transactions of any number of charges and
orders interleave, and wherever some of them are aborted, every committed state
is balanced for every user. -/
theorem ledger_invariant {I : Type} [DecidableEq I] (menus : Menus) (requests : I → Request)
    (initial : Long → Option Long) (nextId : ℕ)
    (hinitial : ∀ user balance, initial user = some balance → 0 ≤ balance.toInt)
    {s : System schema I Response}
    (hreach : Reachable (System.step menus.findById)
      (System.start ⟨initial, []⟩ nextId fun i => (requests i).body) s) (user : Long) :
    Balanced s.store user initial := by
  obtain ⟨ls, hrun⟩ := hreach
  obtain ⟨-, history, hex⟩ := System.exists_explained hrun
  refine hex.serial.invariant (P := fun st => ∀ user, Balanced st user initial)
    (fun user => balanced_initial (hinitial user)) (fun st i f hbal hf => ?_) user
  obtain ⟨now, historyId, orderId, rfl⟩ := Request.completes_iff.mp hf
  exact Balanced.finish hbal (requests i) now historyId orderId

/-- A charge and an order of user 1 whose steps alternate: the order waits for
the charge and then spends what it added. -/
theorem ledger_invariant_interleaved :
    let menus : Menus := ⟨[⟨1, "아메리카노", 4500⟩], by decide⟩
    let requests : Bool → Request := fun i => if i then .charge 1 (some 4000) else .order 1 1
    let initial : Long → Option Long := Function.update (fun _ => none) 1 (some 1000)
    let steps : List Bool := [true, false, true, true, true, false, false, false, false, false,
      false, false]
    ∃ s, runs (System.step (S := schema) menus.findById)
        (System.start ⟨initial, []⟩ 1 fun i => (requests i).body)
        (steps.map fun i => .run i default) = some s ∧
      (s.store.rows 1).map Int64.toInt = some 500 ∧ Balanced s.store 1 initial := by
  intro menus requests initial steps
  refine ⟨_, rfl, rfl, ?_⟩
  refine ledger_invariant menus requests initial 1 ?_ ⟨steps.map fun i => .run i default, rfl⟩ 1
  intro user balance hbalance
  by_cases huser : user = 1
  · obtain rfl : 1000 = balance := by simpa [initial, huser] using hbalance
    decide
  · simp [initial, huser] at hbalance

end CoffeeOrder.Shop
