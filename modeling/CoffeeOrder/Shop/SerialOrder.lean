import CoffeeOrder.Kit.KeyedFold
import CoffeeOrder.Shop.Ledger
import Mathlib.Data.Fintype.Basic

/-!
# Serial equivalence of charges and orders

Up to generated identifiers and timestamps, a request is a function of the row
of its user (`Request.visible`, `Request.next`). A request that is rejected
before it locks a row gives the same answer anywhere. So any serial order that
agrees with the order in which the user rows were locked gives every caller the
answer of the interleaving, and leaves the same tables.
-/

namespace CoffeeOrder.Shop

open Kit

/-- A response without its generated order identifier. -/
def Response.erase : Response → Response
  | .charged response => .charged response
  | .ordered response => .ordered { response with orderId := 0 }

/-- An inserted row without its timestamp. -/
def Insertion.erase : Insertion → Insertion
  | .pointHistory row => .pointHistory row
  | .order row => .order { row with createdAt := ⟨0⟩ }

/-- What a transaction answers and inserts, up to identifiers and timestamps. -/
def visible (f : Finished schema Response) : Except Throwable Response × List Insertion :=
  match f.result with
  | .ok response => (.ok response.erase, f.buffers.inserted.map fun entry => entry.2.erase)
  | .error e => (.error e, [])

/-- What a request answers and inserts when it finds `row`. -/
def Request.visible (menus : Menus) (q : Request) (row : Option Long) :
    Except Throwable Response × List Insertion :=
  Shop.visible (q.finished menus row default 0 0)

/-- The row of its user that a request leaves when it finds `row`. -/
def Request.next (menus : Menus) (q : Request) (row : Option Long) : Option Long :=
  ((Store.mk (S := schema) (fun _ => row) []).finish
    (q.finished menus row default 0 0)).rows q.userId

/-- The checks a request passes before it locks a row. -/
def Request.precheck (menus : Menus) : Request → Bool
  | .charge _ none => false
  | .charge _ (some amount) => !decide (amount ≤ 0)
  | .order _ menuId => (menus.findById menuId).isSome

section Request

variable {menus : Menus} {q : Request} {row : Option Long} {now : Instant} {historyId orderId : ℕ}

/-- A request that fails its first checks ends the same way on every row. -/
theorem Request.finished_of_precheck_false (h : q.precheck menus = false) :
    ∃ e, ∀ row now historyId orderId,
      q.finished menus row now historyId orderId = rejected [] e := by
  cases q with
  | charge userId amount =>
    refine ⟨.BusinessException .INVALID_CHARGE_AMOUNT, fun _ _ _ _ => ?_⟩
    cases amount with
    | none => rfl
    | some amount =>
      have hamount : amount ≤ 0 := by simpa [Request.precheck] using h
      simp only [Request.finished, PointService.chargeFinished, if_pos hamount]
  | order userId menuId =>
    have hmenu : menus.findById menuId = none := by simpa [Request.precheck] using h
    refine ⟨.BusinessException .MENU_NOT_FOUND, fun _ _ _ _ => ?_⟩
    simp only [Request.finished, OrderService.orderFinished, hmenu]

/-- A request whose user does not exist ends without a lock. -/
theorem Request.finished_of_row_none (menus : Menus) (q : Request) :
    ∃ e, ∀ now historyId orderId, q.finished menus none now historyId orderId = rejected [] e := by
  cases hcheck : q.precheck menus with
  | false =>
    obtain ⟨e, he⟩ := Request.finished_of_precheck_false hcheck
    exact ⟨e, he none⟩
  | true =>
    refine ⟨.BusinessException .USER_NOT_FOUND, fun _ _ _ => ?_⟩
    cases q with
    | charge userId amount =>
      cases amount with
      | none => simp [Request.precheck] at hcheck
      | some amount =>
        have hamount : ¬amount ≤ 0 := by simpa [Request.precheck] using hcheck
        simp only [Request.finished, PointService.chargeFinished, if_neg hamount]
    | order userId menuId =>
      obtain ⟨menu, hmenu⟩ := Option.isSome_iff_exists.mp hcheck
      simp only [Request.finished, OrderService.orderFinished, hmenu]

/-- A request that finds its user's row locks it, and either fails the same way at
every time or accepts with the generated values filled in. -/
theorem Request.finished_of_precheck (balance : Long) (h : q.precheck menus = true) :
    (∃ e, ∀ now historyId orderId,
      q.finished menus (some balance) now historyId orderId = rejected [q.userId] e) ∨
    (∃ userId amount balance', q = .charge userId (some amount) ∧ ∀ now historyId orderId,
      q.finished menus (some balance) now historyId orderId =
        ⟨.ok (.charged ⟨userId, balance'⟩), chargeBuffers userId amount balance' historyId⟩) ∨
    ∃ userId menuId price balance', q = .order userId menuId ∧ ∀ now historyId orderId,
      q.finished menus (some balance) now historyId orderId =
        ⟨.ok (.ordered ⟨orderId, userId, menuId, price, balance'⟩),
          orderBuffers userId menuId price balance' now historyId orderId⟩ := by
  cases q with
  | charge userId amount =>
    cases amount with
    | none => simp [Request.precheck] at h
    | some amount =>
      have hamount : ¬amount ≤ 0 := by simpa [Request.precheck] using h
      simp only [Request.finished, PointService.chargeFinished, if_neg hamount]
      cases hadd : addExact balance amount with
      | none => exact .inl ⟨_, fun _ _ _ => rfl⟩
      | some balance' => exact .inr (.inl ⟨userId, amount, balance', rfl, fun _ _ _ => rfl⟩)
  | order userId menuId =>
    obtain ⟨menu, hmenu⟩ := Option.isSome_iff_exists.mp h
    simp only [Request.finished, OrderService.orderFinished, hmenu]
    cases huse : User.use ⟨userId, balance⟩ menu.price with
    | error e => exact .inl ⟨e, fun _ _ _ => rfl⟩
    | ok user =>
      exact .inr (.inr ⟨userId, menuId, menu.price, user.balance, rfl, fun _ _ _ => rfl⟩)

/-- Everything about a request that a serial run can see, for any clock reading
and generated identifiers: the visible part and the row it leaves are functions
of the row it finds, and it locks that row exactly if it passes its first checks
and the row exists. -/
theorem Request.finished_spec (menus : Menus) (q : Request) (now : Instant)
    (historyId orderId : ℕ) (st : Store schema) :
    let f := q.finished menus (st.rows q.userId) now historyId orderId
    Shop.visible f = q.visible menus (st.rows q.userId) ∧
      (st.finish f).rows =
        Function.update st.rows q.userId (q.next menus (st.rows q.userId)) ∧
      (st.finish f).log.map (fun entry => entry.2.erase) =
        st.log.map (fun entry => entry.2.erase) ++ (Shop.visible f).2 ∧
      ∀ key, key ∈ f.buffers.locked ↔
        key = q.userId ∧ q.precheck menus = true ∧ st.rows q.userId ≠ none := by
  cases hrow : st.rows q.userId with
  | none =>
    obtain ⟨e, he⟩ := Request.finished_of_row_none menus q
    have hsame : Function.update st.rows q.userId none = st.rows := by
      rw [← hrow, Function.update_eq_self]
    simp [Request.visible, Request.next, he, rejected, Shop.visible, Store.finish, hsame]
  | some balance =>
    have hsame : Function.update st.rows q.userId (some balance) = st.rows := by
      rw [← hrow, Function.update_eq_self]
    cases hcheck : q.precheck menus with
    | false =>
      obtain ⟨e, he⟩ := Request.finished_of_precheck_false hcheck
      simp [Request.visible, Request.next, he, rejected, Shop.visible, Store.finish, hsame]
    | true =>
      rcases Request.finished_of_precheck balance hcheck with
        ⟨e, he⟩ | ⟨userId, amount, balance', rfl, he⟩ | ⟨userId, menuId, price, balance', rfl, he⟩
      · simp [Request.visible, Request.next, he, rejected, Shop.visible, Store.finish, hsame]
      · have hrows := apply_rows_update st
          (chargeBuffers userId amount balance' historyId) balance' rfl
        simp only [Request.userId] at hrow ⊢
        refine ⟨?_, ?_, ?_, ?_⟩
        · simp [Request.visible, he, Shop.visible, chargeBuffers]
        · simpa [Request.next, Request.userId, he, Store.finish, Store.apply, Buffers.view,
            chargeBuffers] using hrows
        · simp [he, Shop.visible, Store.finish, Store.apply, chargeBuffers]
        · simp [he, chargeBuffers]
      · have hrows := apply_rows_update st
          (orderBuffers userId menuId price balance' now historyId orderId) balance' rfl
        simp only [Request.userId] at hrow ⊢
        refine ⟨?_, ?_, ?_, ?_⟩
        · simp [Request.visible, he, Shop.visible, orderBuffers, Response.erase, Insertion.erase]
        · simpa [Request.next, Request.userId, he, Store.finish, Store.apply, Buffers.view,
            orderBuffers] using hrows
        · simp [he, Shop.visible, Store.finish, Store.apply, orderBuffers]
        · simp [he, orderBuffers]

/-- A request neither creates nor removes its user. -/
theorem Request.next_eq_none : q.next menus row = none ↔ row = none := by
  cases row with
  | none =>
    obtain ⟨e, he⟩ := Request.finished_of_row_none menus q
    simp [Request.next, he, rejected, Store.finish]
  | some balance =>
    cases hcheck : q.precheck menus with
    | false =>
      obtain ⟨e, he⟩ := Request.finished_of_precheck_false hcheck
      simp [Request.next, he, rejected, Store.finish]
    | true =>
      rcases Request.finished_of_precheck balance hcheck with
        ⟨e, he⟩ | ⟨userId, amount, balance', rfl, he⟩ | ⟨userId, menuId, price, balance', rfl, he⟩
      · simp [Request.next, he, rejected, Store.finish]
      · simp [Request.next, he, Store.finish, Store.apply, Buffers.view]
      · simp [Request.next, he, Store.finish, Store.apply, Buffers.view]

/-- A request that is refused before the lock leaves the row as it is. -/
theorem Request.next_of_precheck_false (h : q.precheck menus = false) : q.next menus row = row := by
  obtain ⟨e, he⟩ := Request.finished_of_precheck_false h
  simp [Request.next, he, rejected, Store.finish]

/-- A request that is refused before the lock answers the same for every row. -/
theorem Request.visible_of_precheck_false (h : q.precheck menus = false) (row' : Option Long) :
    q.visible menus row = q.visible menus row' := by
  obtain ⟨e, he⟩ := Request.finished_of_precheck_false h
  simp [Request.visible, he]

end Request

section Serial

variable {I : Type} (menus : Menus) (requests : I → Request) (initial : Long → Option Long)

/-- The requests that lock their user's row, whatever runs before them. -/
def TakesLock (i : I) : Prop :=
  (requests i).precheck menus = true ∧ initial (requests i).userId ≠ none

instance : DecidablePred (TakesLock menus requests initial) :=
  fun i => inferInstanceAs (Decidable ((requests i).precheck menus = true ∧ _))

/-- What request `i` makes of the row of its user; a missing user stays missing. -/
def leaves (i : I) (row : Option Long) : Option Long :=
  if initial (requests i).userId = none then row else (requests i).next menus row

/-- The balances after a list of requests. -/
def balancesAfter (order : List I) : Long → Option Long :=
  applyKeyed (fun i => (requests i).userId) (leaves menus requests initial) initial order

/-- A serial history in terms of the row each request finds. -/
structure Follows (log : List (ℕ × Insertion)) (history : List (I × Finished schema Response))
    (st : Store schema) : Prop where
  rows_eq : st.rows = balancesAfter menus requests initial (history.map Prod.fst)
  visible_eq : ∀ pre e post, history = pre ++ e :: post → visible e.2 =
    (requests e.1).visible menus
      (balancesAfter menus requests initial (pre.map Prod.fst) (requests e.1).userId)
  locked_iff : ∀ e ∈ history, ∀ key, key ∈ e.2.buffers.locked ↔
    TakesLock menus requests initial e.1 ∧ (requests e.1).userId = key
  log_eq : st.log.map (fun entry => entry.2.erase) =
    log.map (fun entry => entry.2.erase) ++ history.flatMap fun e => (visible e.2).2

variable {menus requests initial}

/-- A request without a lock leaves the row of its user as it is. -/
theorem leaves_of_not_takesLock (i : I) (h : ¬TakesLock menus requests initial i)
    (row : Option Long) : leaves menus requests initial i row = row := by
  unfold leaves
  split
  · rfl
  · rename_i huser
    have hcheck : (requests i).precheck menus = false := by
      by_contra hcheck
      exact h ⟨by simpa using hcheck, huser⟩
    exact Request.next_of_precheck_false hcheck

/-- Users are neither created nor removed. -/
theorem balancesAfter_eq_none (order : List I) (userId : Long) :
    balancesAfter menus requests initial order userId = none ↔ initial userId = none := by
  induction order using List.reverseRecOn generalizing userId with
  | nil => rfl
  | append_singleton order i ih =>
    rw [← ih, balancesAfter, applyKeyed_snoc]
    by_cases huser : userId = (requests i).userId
    · subst huser
      rw [Function.update_self, leaves]
      split
      · rfl
      · exact Request.next_eq_none
    · rw [Function.update_of_ne huser]
      rfl

/-- Every serial run is described by the rows its requests find. -/
theorem serialRun_follows {log : List (ℕ × Insertion)}
    {history : List (I × Finished schema Response)} {st : Store schema}
    (hrun : SerialRun menus.findById (fun i => (requests i).body) ⟨initial, log⟩ history st) :
    Follows menus requests initial log history st := by
  induction hrun with
  | nil => exact ⟨rfl, by simp, by simp, by simp⟩
  | @snoc history st i f _ hcompletes ih =>
    obtain ⟨now, historyId, orderId, rfl⟩ := Request.completes_iff.mp hcompletes
    obtain ⟨hvisible, hrows, hlog, hlocked⟩ := Request.finished_spec menus
      (requests i) now historyId orderId st
    have hexists : st.rows (requests i).userId = none ↔ initial (requests i).userId = none := by
      rw [ih.rows_eq, balancesAfter_eq_none]
    have hnext : (requests i).next menus (st.rows (requests i).userId) =
        leaves menus requests initial i (st.rows (requests i).userId) := by
      unfold leaves
      split
      · rename_i huser
        rw [hexists.mpr huser]
        exact Request.next_eq_none.mpr rfl
      · rfl
    constructor
    · rw [hrows, hnext, ih.rows_eq, List.map_append, balancesAfter, balancesAfter]
      exact (applyKeyed_snoc (history.map Prod.fst) i).symm
    · intro pre e post hsplit
      rcases List.eq_nil_or_concat post with rfl | ⟨post, e', rfl⟩
      · obtain ⟨rfl, he⟩ := List.append_inj' hsplit rfl
        obtain rfl : _ = e := by simpa using he
        rw [← ih.rows_eq]
        exact hvisible
      · rw [List.concat_eq_append, ← List.cons_append, ← List.append_assoc] at hsplit
        exact ih.visible_eq pre e post (List.append_inj' hsplit rfl).1
    · intro e he key
      rcases List.mem_append.mp he with hold | hnew
      · exact ih.locked_iff e hold key
      · obtain rfl : e = _ := by simpa using hnew
        rw [hlocked key, Ne, hexists, eq_comm (a := key)]
        exact and_comm
    · rw [hlog, ih.log_eq, List.flatMap_append]
      simp

/-- Any order of the requests is the order of some serial run. -/
theorem exists_serialRun (log : List (ℕ × Insertion)) (order : List I) :
    ∃ history st, SerialRun menus.findById (fun i => (requests i).body) ⟨initial, log⟩ history st ∧
      history.map Prod.fst = order := by
  induction order using List.reverseRecOn with
  | nil => exact ⟨[], _, .nil, rfl⟩
  | append_singleton order i ih =>
    obtain ⟨history, st, hrun, hmap⟩ := ih
    have hcompletes : (requests i).body.Completes menus.findById st.rows {} _ :=
      Request.completes_iff.mpr ⟨default, 0, 0, rfl⟩
    exact ⟨_, _, hrun.snoc hcompletes, by simp [hmap]⟩

variable {log : List (ℕ × Insertion)} {history history' : List (I × Finished schema Response)}
  {st st' : Store schema}

/-- Two serial histories that serve each user's locking requests in the same
order give every request the same answer. -/
theorem Follows.visible_congr (h : Follows menus requests initial log history st)
    (h' : Follows menus requests initial log history' st')
    (hnodup : (history.map Prod.fst).Nodup)
    (horder : ∀ key,
      ((history.map Prod.fst).filter fun i => TakesLock menus requests initial i ∧
        (requests i).userId = key) =
      (history'.map Prod.fst).filter fun i => TakesLock menus requests initial i ∧
        (requests i).userId = key)
    {i : I} {f f' : Finished schema Response} (hf : (i, f) ∈ history) (hf' : (i, f') ∈ history') :
    visible f = visible f' := by
  obtain ⟨pre, post, rfl⟩ := List.append_of_mem hf
  obtain ⟨pre', post', rfl⟩ := List.append_of_mem hf'
  rw [h.visible_eq pre _ post rfl, h'.visible_eq pre' _ post' rfl]
  by_cases hlock : TakesLock menus requests initial i
  · have hfound := applyKeyed_before_congr initial leaves_of_not_takesLock hlock
      (by simpa using hnodup) (by simpa using horder (requests i).userId)
    rw [balancesAfter, hfound, balancesAfter]
  · by_cases hcheck : (requests i).precheck menus = true
    · have huser : initial (requests i).userId = none := by
        by_contra huser
        exact hlock ⟨hcheck, huser⟩
      rw [(balancesAfter_eq_none _ _).mpr huser, (balancesAfter_eq_none _ _).mpr huser]
    · exact Request.visible_of_precheck_false (by simpa using hcheck) _

/-- Such histories insert the same rows, in another order. -/
theorem Follows.log_perm (h : Follows menus requests initial log history st)
    (h' : Follows menus requests initial log history' st')
    (hnodup : (history.map Prod.fst).Nodup) (hnodup' : (history'.map Prod.fst).Nodup)
    (hsame : ∀ i, i ∈ history.map Prod.fst ↔ i ∈ history'.map Prod.fst)
    (hvisible : ∀ i f f', (i, f) ∈ history → (i, f') ∈ history' → visible f = visible f') :
    (st.log.map fun entry => entry.2.erase).Perm (st'.log.map fun entry => entry.2.erase) := by
  let answer : I × Finished schema Response → I × (Except Throwable Response × List Insertion) :=
    fun e => (e.1, visible e.2)
  have hfst : ∀ l : List (I × Finished schema Response),
      (l.map answer).map Prod.fst = l.map Prod.fst := fun l => by simp [answer, Function.comp_def]
  have hperm : (history.map answer).Perm (history'.map answer) := by
    refine (List.perm_ext_iff_of_nodup (.of_map _ ((hfst history).symm ▸ hnodup))
      (.of_map _ ((hfst history').symm ▸ hnodup'))).mpr fun a => ?_
    constructor
    · intro ha
      obtain ⟨⟨i, f⟩, hf, rfl⟩ := List.mem_map.mp ha
      obtain ⟨⟨j, f'⟩, hf', rfl⟩ := List.mem_map.mp ((hsame i).mp (List.mem_map_of_mem hf))
      exact List.mem_map.mpr ⟨(j, f'), hf', by simp [answer, hvisible j f f' hf hf']⟩
    · intro ha
      obtain ⟨⟨i, f'⟩, hf', rfl⟩ := List.mem_map.mp ha
      obtain ⟨⟨j, f⟩, hf, rfl⟩ := List.mem_map.mp ((hsame i).mpr (List.mem_map_of_mem hf'))
      exact List.mem_map.mpr ⟨(j, f), hf, by simp [answer, hvisible j f f' hf hf']⟩
  rw [h.log_eq, h'.log_eq]
  refine List.Perm.append_left _ ?_
  simpa [answer, List.flatMap_map] using hperm.flatMap_right fun a => a.2.2

end Serial

section Tables

variable {st st' : Store schema}

/-- The history rows are the same when the logs are, up to what is erased. -/
theorem pointHistoryTable_perm
    (h : (st.log.map fun entry => entry.2.erase).Perm (st'.log.map fun entry => entry.2.erase)) :
    ((pointHistoryTable st).map Prod.snd).Perm ((pointHistoryTable st').map Prod.snd) := by
  have hrows : ∀ st : Store schema, (pointHistoryTable st).map Prod.snd =
      (st.log.map fun entry => entry.2.erase).filterMap fun row =>
        match row with
        | .pointHistory row => some row
        | .order _ => none := by
    intro st
    rw [pointHistoryTable, pointHistoryRows, List.map_filterMap, List.filterMap_map]
    refine List.filterMap_congr fun entry _ => ?_
    rcases entry with ⟨id, row | row⟩ <;> rfl
  rw [hrows, hrows]
  exact h.filterMap _

/-- The orders are the same up to identifiers and timestamps. -/
theorem ordersTable_perm
    (h : (st.log.map fun entry => entry.2.erase).Perm (st'.log.map fun entry => entry.2.erase)) :
    ((ordersTable st).map fun entry => { entry.2 with createdAt := ⟨0⟩ }).Perm
      ((ordersTable st').map fun entry => { entry.2 with createdAt := ⟨0⟩ }) := by
  have hrows : ∀ st : Store schema,
      (ordersTable st).map (fun entry => { entry.2 with createdAt := ⟨0⟩ }) =
      (st.log.map fun entry => entry.2.erase).filterMap fun row =>
        match row with
        | .pointHistory _ => none
        | .order row => some row := by
    intro st
    rw [ordersTable, orderRows, List.map_filterMap, List.filterMap_map]
    refine List.filterMap_congr fun entry _ => ?_
    rcases entry with ⟨id, row | row⟩ <;> rfl
  rw [hrows, hrows]
  exact h.filterMap _

end Tables

section Equivalence

variable {I : Type} [DecidableEq I] {menus : Menus} {requests : I → Request}
  {initial : Long → Option Long} {log : List (ℕ × Insertion)} {locks : List (I × Long)}
  {s : System schema I Response} {history : List (I × Finished schema Response)}

/-- In a complete interleaving, the requests that locked a user's row stand in the
history of ended transactions as they stand in the lock order. -/
theorem history_lockOrder (hinv : s.Invariant menus.findById fun i => (requests i).body)
    (hex : s.Explained menus.findById (fun i => (requests i).body) ⟨initial, log⟩ locks history)
    (hfollows : Follows menus requests initial log history s.store)
    (hcomplete : ∀ i, ∃ r, (s.status i).outcome = some r) (order : List I)
    (horder : (order.filter fun i => i ∈ locks.map Prod.fst) = locks.map Prod.fst) (key : Long) :
    ((history.map Prod.fst).filter fun i => TakesLock menus requests initial i ∧
      (requests i).userId = key) =
    order.filter fun i => TakesLock menus requests initial i ∧ (requests i).userId = key := by
  have hlocks : ∀ i k, (i, k) ∈ locks ↔ TakesLock menus requests initial i ∧
      (requests i).userId = k := by
    intro i k
    obtain ⟨r, hr⟩ := hcomplete i
    obtain ⟨buf, hmem⟩ := (hex.outcome i r).mp hr
    rw [hex.locks_ended _ hmem k, hfollows.locked_iff _ hmem k]
  have htakes : ∀ i, TakesLock menus requests initial i ↔ i ∈ locks.map Prod.fst := by
    intro i
    simp [hlocks]
  have howner : s.owner key = none := by
    by_contra hsome
    obtain ⟨i, hi⟩ := Option.ne_none_iff_exists'.mp hsome
    obtain ⟨body, buf, hrunning⟩ := hinv.owner_running key i hi
    obtain ⟨r, hr⟩ := hcomplete i
    simp [hrunning, Status.outcome] at hr
  have hnone : ∀ i, s.status i ≠ .aborted := by
    intro i haborted
    obtain ⟨r, hr⟩ := hcomplete i
    simp [haborted, Status.outcome] at hr
  calc (history.map Prod.fst).filter (fun i => TakesLock menus requests initial i ∧
        (requests i).userId = key)
      = (history.filter fun e => key ∈ e.2.buffers.locked).map Prod.fst := by
        rw [List.filter_map]
        congr 1
        refine List.filter_congr fun e he => ?_
        simp [hfollows.locked_iff e he key]
    _ = (locks.filter fun e => e.2 = key).map Prod.fst := by
        rw [hex.order hnone key, howner, Option.toList_none, List.append_nil]
    _ = (locks.map Prod.fst).filter fun i => (requests i).userId = key := by
        rw [List.filter_map]
        congr 1
        refine List.filter_congr fun e he => ?_
        simp [((hlocks e.1 e.2).mp he).2]
    _ = order.filter fun i => TakesLock menus requests initial i ∧ (requests i).userId = key := by
        rw [← horder, List.filter_filter]
        refine List.filter_congr fun i _ => ?_
        simp only [← htakes i, Bool.decide_and, Bool.and_comm]

/-- **Serial equivalence.** Take any complete interleaving of finitely many charges
and orders, and any order of the requests in which those that locked their user's
row stand as they acquired the locks. Running the requests one at a time in that
order is possible, and whichever timestamps and identifiers it draws, it gives
every request the same answer and leaves the same users, history and orders. -/
theorem serial_equivalence (nextId : ℕ) {ls : List (Label schema I)}
    (hrun : runs (System.step menus.findById)
      (System.start ⟨initial, log⟩ nextId fun i => (requests i).body) ls = some s)
    (hcomplete : ∀ i, ∃ r, (s.status i).outcome = some r) (order : List I)
    (hnodup : order.Nodup) (hall : ∀ i, i ∈ order)
    (horder :
      let locks := System.lockOrder menus.findById
        (System.start ⟨initial, log⟩ nextId fun i => (requests i).body) ls
      (order.filter fun i => i ∈ locks.map Prod.fst) = locks.map Prod.fst) :
    (∃ serial st, SerialRun menus.findById (fun i => (requests i).body) ⟨initial, log⟩ serial st ∧
      serial.map Prod.fst = order) ∧
    ∀ serial st, SerialRun menus.findById (fun i => (requests i).body) ⟨initial, log⟩ serial st →
      serial.map Prod.fst = order →
      (∀ e ∈ serial, (s.status e.1).outcome.map (Except.map Response.erase) =
        some (e.2.result.map Response.erase)) ∧
      st.rows = s.store.rows ∧
      ((pointHistoryTable st).map Prod.snd).Perm ((pointHistoryTable s.store).map Prod.snd) ∧
      ((ordersTable st).map fun entry => { entry.2 with createdAt := ⟨0⟩ }).Perm
        ((ordersTable s.store).map fun entry => { entry.2 with createdAt := ⟨0⟩ }) := by
  refine ⟨exists_serialRun log order, fun serial st hserial hmap => ?_⟩
  obtain ⟨hinv, history, hex⟩ := System.exists_explained hrun
  have hfollows := serialRun_follows hex.serial
  have hfollows' := serialRun_follows hserial
  have hkeys : ∀ key,
      ((history.map Prod.fst).filter fun i => TakesLock menus requests initial i ∧
        (requests i).userId = key) =
      (serial.map Prod.fst).filter fun i => TakesLock menus requests initial i ∧
        (requests i).userId = key := by
    intro key
    rw [hmap]
    exact history_lockOrder hinv hex hfollows hcomplete order horder key
  have hended : ∀ i, i ∈ history.map Prod.fst := by
    intro i
    obtain ⟨r, hr⟩ := hcomplete i
    obtain ⟨buf, hmem⟩ := (hex.outcome i r).mp hr
    exact List.mem_map_of_mem hmem
  have hvisible : ∀ i f f', (i, f) ∈ history → (i, f') ∈ serial → visible f = visible f' :=
    fun i f f' hf hf' => hfollows.visible_congr hfollows' hex.nodup hkeys hf hf'
  have hlog := hfollows.log_perm hfollows' hex.nodup (by rw [hmap]; exact hnodup)
    (fun i => by simp only [hended i, hmap, hall i]) hvisible
  refine ⟨?_, ?_, pointHistoryTable_perm hlog.symm, ordersTable_perm hlog.symm⟩
  · rintro ⟨i, f'⟩ he
    obtain ⟨⟨j, f⟩, hf, rfl⟩ := List.mem_map.mp (hended i)
    have houtcome := (hex.outcome j f.result).mpr ⟨f.buffers, hf⟩
    have hanswer : (visible f).1 = (visible f').1 := by rw [hvisible j f f' hf he]
    have hresult : ∀ g : Finished schema Response,
        (visible g).1 = g.result.map Response.erase := by
      rintro ⟨_ | _, _⟩ <;> rfl
    rw [houtcome, Option.map_some, ← hresult f, ← hresult f', hanswer]
  · rw [hfollows.rows_eq, hfollows'.rows_eq]
    exact (applyKeyed_congr leaves_of_not_takesLock hkeys).symm

/-- A charge and an order of user 1 whose steps alternate: the charge locks the
row first, so the interleaving is the charge followed by the order. -/
theorem serial_equivalence_interleaved :
    let menus : Menus := ⟨[⟨1, "아메리카노", 4500⟩], by decide⟩
    let requests : Bool → Request := fun i => if i then .charge 1 (some 4000) else .order 1 1
    let initial : Long → Option Long := Function.update (fun _ => none) 1 (some 1000)
    let steps : List Bool := [true, false, true, true, true, false, false, false, false, false,
      false, false]
    ∃ s, runs (System.step (S := schema) menus.findById)
        (System.start ⟨initial, []⟩ 1 fun i => (requests i).body)
        (steps.map fun i => .run i default) = some s ∧
      ∃ serial st, SerialRun menus.findById (fun i => (requests i).body) ⟨initial, []⟩ serial st ∧
        serial.map Prod.fst = [true, false] ∧ st.rows = s.store.rows := by
  intro menus requests initial steps
  refine ⟨_, rfl, ?_⟩
  have hrun : runs (System.step (S := schema) menus.findById)
      (System.start ⟨initial, []⟩ 1 fun i => (requests i).body)
      (steps.map fun i => .run i default) = some _ := rfl
  have hequiv := serial_equivalence 1 hrun
    (fun i => by cases i <;> exact ⟨_, rfl⟩) [true, false] (by decide)
      (fun i => by cases i <;> simp)
    (by decide)
  obtain ⟨⟨serial, st, hserial, hmap⟩, hall⟩ := hequiv
  exact ⟨serial, st, hserial, hmap, (hall serial st hserial hmap).2.1⟩

end Equivalence

end CoffeeOrder.Shop
