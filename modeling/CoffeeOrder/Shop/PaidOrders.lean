import CoffeeOrder.Kit.FreshIds
import CoffeeOrder.Shop.Reading

/-!
# Paid orders and their events

In every interleaving, the `orders` rows committed since the start and the
events released after commit correspond one to one, in commit order: each event
carries the identifier, user, menu, price and time of its row.
-/

namespace CoffeeOrder.Shop

open Kit

/-- The event of a paid order. -/
def paidEvent (o : ℕ × Order) : OrderPaidEvent :=
  ⟨o.1, o.2.userId, o.2.menuId, o.2.price, o.2.createdAt⟩

/-- Different paid orders have different events. -/
theorem paidEvent_injective : Function.Injective paidEvent := by
  rintro ⟨id, row⟩ ⟨id', row'⟩ h
  cases row
  cases row'
  simp only [paidEvent, OrderPaidEvent.mk.injEq] at h
  obtain ⟨rfl, rfl, rfl, rfl, rfl⟩ := h
  rfl

/-- `paid` are the orders placed since the start, as table rows and as events. -/
structure Paid (menus : Menus) (initial : Store schema) (nextId : ℕ) {I : Type}
    (s : System schema I Response) (paid : List (ℕ × Order)) : Prop where
  orders_eq : ordersTable s.store = ordersTable initial ++ paid
  outbox_eq : s.outbox.map Prod.snd = paid.map paidEvent
  nodup : (paid.map Prod.fst).Nodup
  fresh : ∀ o ∈ paid, nextId ≤ o.1
  exact : ∀ o ∈ paid, o.2.createdAt.Exact
  menu_mem : ∀ o ∈ paid, ∃ menu ∈ menus.rows, menu.id = o.2.menuId

section Paid

variable {menus : Menus} {I : Type}

/-- The events of one transaction are those of the orders it leaves. -/
theorem completes_released {q : Request} {rows : Long → Option Long} {f : Finished schema Response}
    (h : q.body.Completes menus.findById rows {} f) :
    f.released = (orderRows f.logged).map paidEvent ∧
      ∀ o ∈ orderRows f.logged,
        o.2.createdAt.Exact ∧ ∃ menu ∈ menus.rows, menu.id = o.2.menuId := by
  obtain ⟨now, historyId, orderId, rfl⟩ := Request.completes_iff.mp h
  have hends := q.ends menus (rows q.userId) now historyId orderId
  generalize q.finished menus (rows q.userId) now historyId orderId = f at hends
  cases hends with
  | rejected => exact ⟨rfl, by simp [orderRows, Finished.logged, rejected]⟩
  | charged => exact ⟨rfl, by simp [orderRows, Finished.logged, chargeBuffers]⟩
  | ordered hmenu =>
    obtain ⟨hmem, hid⟩ := Menus.findById_eq_some hmenu
    refine ⟨rfl, ?_⟩
    simp only [orderRows, Finished.logged, orderBuffers, List.filterMap_cons, List.filterMap_nil,
      List.mem_singleton, forall_eq]
    exact ⟨LocalDateTime.ofInstant_exact now, _, hmem, hid⟩

variable [DecidableEq I]

/-- **Orders and events.** In every reachable state the orders placed since the
start have fresh and distinct identifiers, and their events are what the commits
have released, in the same order. -/
theorem exists_paid {initial : Store schema} {nextId : ℕ} {requests : I → Request}
    {s : System schema I Response}
    (hreach : Reachable (System.step menus.findById)
      (System.start initial nextId fun i => (requests i).body) s) :
    ∃ paid, Paid menus initial nextId s paid := by
  obtain ⟨new, hfresh⟩ := System.exists_freshIds hreach
  obtain ⟨ls, hrun⟩ := hreach
  obtain ⟨-, history, hex⟩ := System.exists_explained hrun
  have hentries := hex.serial.forall_completes fun i rows f hf => completes_released hf
  have hnew : new = history.flatMap fun e => e.2.logged :=
    List.append_cancel_left (hfresh.log_eq.symm.trans hex.serial.log_eq)
  have hids : ((orderRows new).map Prod.fst).Sublist (new.map Prod.fst) := by
    have hmap : ∀ log : List (ℕ × Insertion),
        ((orderRows log).map Prod.fst).Sublist (log.map Prod.fst) := by
      intro log
      induction log with
      | nil => exact List.Sublist.refl _
      | cons entry log ih =>
        rcases entry with ⟨id, row | row⟩
        · exact ih.cons _
        · exact ih.cons_cons _
    exact hmap new
  have hrows : ∀ o ∈ orderRows new, ∃ e ∈ history, o ∈ orderRows e.2.logged := by
    intro o ho
    rw [hnew, orderRows, List.filterMap_flatMap] at ho
    exact List.mem_flatMap.mp ho
  refine ⟨orderRows new, ?_, ?_, hfresh.nodup.sublist hids, ?_, ?_, ?_⟩
  · rw [ordersTable, hfresh.log_eq, orderRows, List.filterMap_append]
    rfl
  · rw [hex.outbox_eq, hnew, orderRows, List.filterMap_flatMap, List.map_flatMap, List.map_flatMap]
    refine List.flatMap_congr fun e he => ?_
    rw [List.map_map, (hentries e he).1]
    exact List.map_id _
  · intro o ho
    exact (hfresh.range o.1 (hids.subset (List.mem_map_of_mem ho))).1
  · intro o ho
    obtain ⟨e, he, hmem⟩ := hrows o ho
    exact ((hentries e he).2 o hmem).1
  · intro o ho
    obtain ⟨e, he, hmem⟩ := hrows o ho
    exact ((hentries e he).2 o hmem).2

end Paid

end CoffeeOrder.Shop
