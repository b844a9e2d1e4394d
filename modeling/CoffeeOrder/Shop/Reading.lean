import CoffeeOrder.Shop.ReadModel

/-!
# What a read of the popular menus returns

Both paths of `getPopularMenus` compute the leaderboard of the menus: the SQL
query by the orders in the window, the Redis path by the members of the sorted
sets. So a read agrees with MySQL exactly if it falls back to MySQL or Redis has
counted every order of the menus on MySQL's board.
-/

namespace CoffeeOrder.Shop

open Kit

/-- Menu ids are ordered as their integers. -/
instance : LinearOrder Long where
  le_refl _ := Int64.le_refl _
  le_trans _ _ _ := Int64.le_trans
  lt_iff_le_not_ge a b := by
    simp only [Int64.lt_iff_toInt_lt, Int64.le_iff_toInt_le]
    omega
  le_antisymm _ _ := Int64.le_antisymm
  le_total := Int64.le_total
  toDecidableLE := inferInstance

/-- The window `[from_, to_)` of the query. -/
def InWindow (from_ to_ dateTime : LocalDateTime) : Prop := from_ ≤ dateTime ∧ dateTime < to_

instance (from_ to_ dateTime : LocalDateTime) : Decidable (InWindow from_ to_ dateTime) :=
  inferInstanceAs (Decidable (_ ∧ _))

/-- The end of the window of a read at `now`. -/
def windowTo (now : Instant) : LocalDateTime := .ofInstant now

/-- The start of the window of a read at `now`. -/
def windowFrom (now : Instant) : LocalDateTime := (windowTo now).minusDays 7

/-- The orders of a menu in the window. -/
def databaseCount (orders : List (ℕ × Order)) (from_ to_ : LocalDateTime) (menu : Menu) : ℕ :=
  orders.countP fun o => InWindow from_ to_ o.2.createdAt ∧ o.2.menuId = menu.id

/-- The members that `ZCOUNT` counts for a menu. -/
def redisCount (redis : ZSets) (from_ to_ : LocalDateTime) (menuId : Long) : ℕ :=
  zcount (redis menuId) (doubleOfLong (PopularMenuRedisCounter.toEpochMicros from_))
    (doubleOfLong (PopularMenuRedisCounter.toEpochMicros to_ - 1))

section Database

variable (menus : Menus) (orders : List (ℕ × Order)) (from_ to_ : LocalDateTime)

/-- Joining an order with `menus` gives the one menu it was placed for, if any. -/
theorem filter_id_eq (menuId : Long) :
    (menus.rows.filter fun m => m.id = menuId) = (menus.findById menuId).toList := by
  cases hmenu : menus.findById menuId with
  | none =>
    rw [Option.toList_none, List.filter_eq_nil_iff]
    exact fun m hm => List.find?_eq_none.mp hmenu m hm
  | some menu =>
    obtain ⟨hmem, hid⟩ := Menus.findById_eq_some hmenu
    obtain ⟨pre, post, hrows⟩ := List.append_of_mem hmem
    have hnodup := menus.nodup
    rw [hrows, List.map_append, List.map_cons, List.nodup_append, List.nodup_cons] at hnodup
    obtain ⟨-, ⟨hpost, -⟩, hpre⟩ := hnodup
    have hpre' : (pre.filter fun m => m.id = menuId) = [] := by
      refine List.filter_eq_nil_iff.mpr fun m hm hmid => ?_
      exact hpre m.id (List.mem_map_of_mem hm) menu.id List.mem_cons_self
        ((of_decide_eq_true hmid).trans hid.symm)
    have hpost' : (post.filter fun m => m.id = menuId) = [] := by
      refine List.filter_eq_nil_iff.mpr fun m hm hmid => ?_
      exact hpost (List.mem_map.mpr ⟨m, hm, (of_decide_eq_true hmid).trans hid.symm⟩)
    simp [hrows, List.filter_append, hpre', hpost', hid]

/-- The table that the query groups. -/
theorem joined_eq : ((orders.filter fun o => from_ ≤ o.2.createdAt ∧ o.2.createdAt < to_).flatMap
      fun o => (menus.rows.filter fun m => m.id = o.2.menuId).map fun m => (m.id, m.name)) =
    (orders.filter fun o => InWindow from_ to_ o.2.createdAt).filterMap fun o =>
      (menus.findById o.2.menuId).map fun m => (m.id, m.name) := by
  rw [List.filterMap_eq_flatMap_toList]
  refine List.flatMap_congr fun o _ => ?_
  rw [filter_id_eq]
  cases menus.findById o.2.menuId <;> rfl

/-- The primary key of `menus`. -/
theorem findById_of_mem {menu : Menu} (hmenu : menu ∈ menus.rows) :
    menus.findById menu.id = some menu := by
  have hmem : menu ∈ menus.rows.filter fun m => m.id = menu.id := by simpa using hmenu
  rw [filter_id_eq] at hmem
  simpa using hmem

/-- An order joins with a menu exactly if it was placed for it. -/
theorem findById_map_eq_some {menu : Menu} (hmenu : menu ∈ menus.rows) (menuId : Long) :
    (menus.findById menuId).map (fun m => (m.id, m.name)) = some (menu.id, menu.name) ↔
      menuId = menu.id := by
  constructor
  · intro h
    obtain ⟨m, hm, hpair⟩ := Option.map_eq_some_iff.mp h
    rw [← (Menus.findById_eq_some hm).2]
    exact (Prod.mk.inj hpair).1
  · rintro rfl
    rw [findById_of_mem menus hmenu, Option.map_some]

/-- A group of the query is a menu with the number of its orders. -/
theorem count_joined {menu : Menu} (hmenu : menu ∈ menus.rows) :
    ((orders.filter fun o => InWindow from_ to_ o.2.createdAt).filterMap fun o =>
      (menus.findById o.2.menuId).map fun m => (m.id, m.name)).count (menu.id, menu.name) =
    databaseCount orders from_ to_ menu := by
  rw [List.count, List.countP_filterMap, List.countP_filter, databaseCount]
  refine List.countP_congr fun o _ => ?_
  simp only [Bool.and_eq_true, decide_eq_true_eq, ← findById_map_eq_some menus hmenu]
  cases menus.findById o.2.menuId <;> simp [and_comm]

/-- The groups of the query are the menus with an order in the window. -/
theorem groups_perm :
    (((orders.filter fun o => InWindow from_ to_ o.2.createdAt).filterMap fun o =>
      (menus.findById o.2.menuId).map fun m => (m.id, m.name)).dedup).Perm
    ((menus.rows.filter fun m => 0 < databaseCount orders from_ to_ m).map
      fun m => (m.id, m.name)) := by
  refine (List.perm_ext_iff_of_nodup (List.nodup_dedup _) ?_).mpr fun g => ?_
  · refine List.Nodup.of_map Prod.fst ?_
    rw [List.map_map]
    exact menus.nodup.sublist (List.filter_sublist.map Menu.id)
  · rw [List.mem_dedup]
    constructor
    · intro hg
      obtain ⟨o, -, ho⟩ := List.mem_filterMap.mp hg
      obtain ⟨m, hm, rfl⟩ := Option.map_eq_some_iff.mp ho
      have hmem := (Menus.findById_eq_some hm).1
      refine List.mem_map.mpr ⟨m, List.mem_filter.mpr ⟨hmem, decide_eq_true ?_⟩, rfl⟩
      rw [← count_joined menus orders from_ to_ hmem]
      exact List.count_pos_iff.mpr hg
    · intro hg
      obtain ⟨m, hm, rfl⟩ := List.mem_map.mp hg
      obtain ⟨hmem, hpos⟩ := List.mem_filter.mp hm
      rw [← List.count_pos_iff, count_joined menus orders from_ to_ hmem]
      exact of_decide_eq_true hpos

/-- **The query.** `findPopularMenus` returns the board of the order counts. -/
theorem findPopularMenus_eq :
    OrderRepository.findPopularMenus menus orders from_ to_ =
      (board Menu.id (databaseCount orders from_ to_) 3 menus.rows).map fun m =>
        ⟨m.id, m.name, databaseCount orders from_ to_ m⟩ := by
  refine take_insertionSort_records menus.nodup PopularMenuProjection.menuId
    PopularMenuProjection.orderCount (fun _ => rfl) (fun _ => rfl) ?_
  rw [joined_eq]
  refine ((groups_perm menus orders from_ to_).map _).trans (.of_eq ?_)
  rw [List.map_map]
  refine List.map_congr_left fun m hm => ?_
  rw [Function.comp_apply, count_joined menus orders from_ to_ (List.mem_of_mem_filter hm)]

end Database

section Redis

variable (menus : Menus) (orders : List (ℕ × Order)) (from_ to_ : LocalDateTime) (s : CounterState)

/-- Times whose microseconds since 1970 a `double` can hold, up to the year 2255. -/
def LocalDateTime.Exact (dateTime : LocalDateTime) : Prop :=
  -2 ^ 53 < dateTime.epochMicros ∧ dateTime.epochMicros < 2 ^ 53

/-- A reading of the clock has an exact score. -/
theorem LocalDateTime.ofInstant_exact (now : Instant) : (LocalDateTime.ofInstant now).Exact := by
  have hsecond := now.epochSecond_lt
  have hnano := now.nano_lt
  unfold LocalDateTime.Exact LocalDateTime.ofInstant
  constructor <;> push_cast <;> omega

/-- The microseconds of exact times are exact in a `long`. -/
theorem toEpochMicros_toInt {dateTime : LocalDateTime} (h : dateTime.Exact) :
    (PopularMenuRedisCounter.toEpochMicros dateTime).toInt = dateTime.epochMicros := by
  obtain ⟨hlow, hhigh⟩ := h
  have hnano : dateTime.epochMicros % 1000000 * 1000 / 1000 = dateTime.epochMicros % 1000000 :=
    Int.mul_ediv_cancel _ (by omega)
  have hsum : PopularMenuRedisCounter.toEpochMicros dateTime =
      Int64.ofInt dateTime.epochMicros := by
    have hsplit := Int.ediv_mul_add_emod dateTime.epochMicros 1000000
    have hmicros : (1000000 : Long) = Int64.ofInt 1000000 := rfl
    simp only [PopularMenuRedisCounter.toEpochMicros, hnano]
    rw [hmicros, ← Int64.ofInt_mul, ← Int64.ofInt_add, hsplit]
  rw [hsum]
  exact Int64.toInt_ofInt_of_le (by omega) (by omega)

/-- The score of an exact time. -/
theorem doubleOfLong_toEpochMicros {dateTime : LocalDateTime} (h : dateTime.Exact) :
    doubleOfLong (PopularMenuRedisCounter.toEpochMicros dateTime) = dateTime.epochMicros := by
  have hint := toEpochMicros_toInt h
  obtain ⟨hlow, hhigh⟩ := h
  rw [doubleOfLong_of_lt (by omega), hint]

/-- An exact score is counted by `ZCOUNT` exactly if its time is in the window. -/
theorem score_inWindow {from_ to_ dateTime : LocalDateTime} (hfrom : from_.Exact)
    (hto : to_.Exact) (hlt : from_ < to_) (h : dateTime.Exact) :
    (doubleOfLong (PopularMenuRedisCounter.toEpochMicros from_) ≤
        doubleOfLong (PopularMenuRedisCounter.toEpochMicros dateTime) ∧
      doubleOfLong (PopularMenuRedisCounter.toEpochMicros dateTime) ≤
        doubleOfLong (PopularMenuRedisCounter.toEpochMicros to_ - 1)) ↔
      InWindow from_ to_ dateTime := by
  have hwindow : from_.epochMicros < to_.epochMicros := hlt
  have hlast : doubleOfLong (PopularMenuRedisCounter.toEpochMicros to_ - 1) =
      to_.epochMicros - 1 := by
    have hint := toEpochMicros_toInt hto
    obtain ⟨hfromLow, -⟩ := hfrom
    obtain ⟨hlow, hhigh⟩ := hto
    have hsub : (PopularMenuRedisCounter.toEpochMicros to_ - 1).toInt = to_.epochMicros - 1 := by
      refine toInt_eq_of_range (by omega) (by omega) ?_
      rw [Int64.toInt_sub, hint]
      rfl
    rw [doubleOfLong_of_lt (by omega), hsub]
  rw [doubleOfLong_toEpochMicros h, doubleOfLong_toEpochMicros hfrom, hlast]
  show _ ↔ from_.epochMicros ≤ dateTime.epochMicros ∧ dateTime.epochMicros < to_.epochMicros
  omega

/-- The window of a read is exact. -/
theorem window_exact (now : Instant) :
    (windowFrom now).Exact ∧ (windowTo now).Exact ∧ windowFrom now < windowTo now := by
  have hto : (windowTo now).Exact := LocalDateTime.ofInstant_exact now
  have hfrom : (windowFrom now).epochMicros = (windowTo now).epochMicros - 604800000000 := rfl
  have hnonneg : (windowTo now).epochMicros = now.epochSecond * 1000000 + (now.nano / 1000 : ℕ) :=
    rfl
  have hhigh := hto.2
  have hlt : (windowFrom now).epochMicros < (windowTo now).epochMicros := by omega
  exact ⟨⟨by omega, by omega⟩, hto, hlt⟩

/-- Without Redis failures the counts of the menus are those of their sorted sets. -/
theorem countEach_exec (fromScore toScoreExclusive : Long) (menuIds : List Long) :
    (PopularMenuRedisCounter.countEach (fun _ => none) fromScore toScoreExclusive menuIds).exec s =
      (.ok (menuIds.map fun menuId => (menuId, zcount (s.redis menuId) (doubleOfLong fromScore)
        (doubleOfLong (toScoreExclusive - 1)))), s) := by
  induction menuIds with
  | nil => rfl
  | cons menuId menuIds ih =>
    simp [PopularMenuRedisCounter.countEach, zsetCount, Call.exec_bind, ih]

/-- Looking up a key in a table of its values. -/
theorem lookup_map {f : Long → ℕ} {keys : List Long} {key : Long} (h : key ∈ keys) :
    (keys.map fun k => (k, f k)).lookup key = some (f key) := by
  induction keys with
  | nil => simp at h
  | cons k keys ih =>
    by_cases hk : key = k
    · simp [hk]
    · have hne : (key == k) = false := by simpa using hk
      rw [List.map_cons, List.lookup_cons, hne]
      exact ih ((List.mem_cons.mp h).resolve_left hk)

/-- The rows of the Redis path, sorted and cut, are the board of the Redis counts. -/
theorem redisRows_eq (count : Menu → ℕ) :
    ((((MenuRepository.findAllByOrderByIdAsc menus).map fun menu =>
      PopularMenuResponse.mk menu.id menu.name (count menu)).filter fun response =>
        response.orderCount > 0).insertionSort fun a b => b.orderCount < a.orderCount ∨
          a.orderCount = b.orderCount ∧ a.menuId ≤ b.menuId).take 3 =
      (board Menu.id count 3 menus.rows).map fun m => ⟨m.id, m.name, count m⟩ := by
  refine take_insertionSort_records menus.nodup PopularMenuResponse.menuId
    PopularMenuResponse.orderCount (fun _ => rfl) (fun _ => rfl) ?_
  rw [List.filter_map]
  exact ((List.perm_insertionSort _ menus.rows).filter _).map _

/-- Without Redis failures `getFromRedis` falls back to MySQL if no menu has a member in
the window, and returns the board of the Redis counts otherwise. -/
theorem getFromRedis_exec (hfresh : s.readModelStale = false) :
    (PopularMenuService.getFromRedis menus orders (fun _ => none) from_ to_).exec s =
      (.ok (if ∀ menu ∈ menus.rows, redisCount s.redis from_ to_ menu.id = 0 then
          PopularMenuService.getFromDatabase menus orders from_ to_
        else (board Menu.id (fun menu => redisCount s.redis from_ to_ menu.id) 3 menus.rows).map
          fun menu => ⟨menu.id, menu.name, redisCount s.redis from_ to_ menu.id⟩), s) := by
  let count := redisCount s.redis from_ to_
  have hcounts : (PopularMenuRedisCounter.countByMenuIds (fun _ => none)
      ((MenuRepository.findAllByOrderByIdAsc menus).map Menu.id) from_ to_).exec s =
      (.ok (((MenuRepository.findAllByOrderByIdAsc menus).map Menu.id).map fun menuId =>
        (menuId, count menuId)), s) := by
    simp [PopularMenuRedisCounter.countByMenuIds, Call.exec_bind, Call.exec_tryCatch,
      hfresh, countEach_exec, count, redisCount]
  have hrows : ((MenuRepository.findAllByOrderByIdAsc menus).map fun menu =>
      PopularMenuResponse.mk menu.id menu.name
        (((((MenuRepository.findAllByOrderByIdAsc menus).map Menu.id).map fun menuId =>
          (menuId, count menuId)).lookup menu.id).getD 0)) =
      (MenuRepository.findAllByOrderByIdAsc menus).map fun menu =>
        PopularMenuResponse.mk menu.id menu.name (count menu.id) := by
    refine List.map_congr_left fun menu hmenu => ?_
    rw [lookup_map (List.mem_map_of_mem hmenu), Option.getD_some]
  have hzero : ((((MenuRepository.findAllByOrderByIdAsc menus).map Menu.id).map fun menuId =>
      (menuId, count menuId)).all fun entry => entry.2 = 0) = true ↔
      ∀ menu ∈ menus.rows, count menu.id = 0 := by
    simp [List.all_eq_true, MenuRepository.findAllByOrderByIdAsc]
  simp only [PopularMenuService.getFromRedis, Call.exec_bind, hcounts, hzero]
  split
  · rfl
  · rw [hrows, redisRows_eq menus fun menu => count menu.id]
    rfl

/-- **The Redis path.** Without Redis failures a read falls back to MySQL if this
instance holds Redis for stale or no menu has a member in the window, and returns
the board of the Redis counts otherwise. -/
theorem getPopularMenus_exec (now : Instant) :
    (PopularMenuService.getPopularMenus menus orders (fun _ => none) now).exec s =
      (.ok (if s.readModelStale ∨
            ∀ menu ∈ menus.rows, redisCount s.redis (windowFrom now) (windowTo now) menu.id = 0 then
          PopularMenuService.getFromDatabase menus orders (windowFrom now) (windowTo now)
        else (board Menu.id (fun menu => redisCount s.redis (windowFrom now) (windowTo now) menu.id)
            3 menus.rows).map fun menu =>
          ⟨menu.id, menu.name, redisCount s.redis (windowFrom now) (windowTo now) menu.id⟩),
        s) := by
  by_cases hstale : s.readModelStale
  · simp [PopularMenuService.getPopularMenus, PopularMenuService.getFromRedis,
      PopularMenuRedisCounter.countByMenuIds, Call.exec_tryCatch, Call.exec_bind, hstale,
      windowFrom, windowTo]
  · have hwindow : PopularMenuService.getPopularMenus menus orders (fun _ => none) now =
        tryCatch (PopularMenuService.getFromRedis menus orders (fun _ => none)
            (windowFrom now) (windowTo now))
          fun _ => pure (PopularMenuService.getFromDatabase menus orders (windowFrom now)
            (windowTo now)) := rfl
    rw [hwindow, Call.exec_tryCatch, getFromRedis_exec menus orders _ _ s (by simpa using hstale)]
    simp [hstale]

/-- A count that throws leaves Redis alone. -/
theorem countEach_raised (raised : Long → Option Throwable) (fromScore toScoreExclusive : Long)
    (menuIds : List Long) :
    (PopularMenuRedisCounter.countEach raised fromScore toScoreExclusive menuIds).exec s =
        (PopularMenuRedisCounter.countEach (fun _ => none) fromScore toScoreExclusive
          menuIds).exec s ∨
      ∃ e, (PopularMenuRedisCounter.countEach raised fromScore toScoreExclusive menuIds).exec s =
        (.error e, s) := by
  induction menuIds with
  | nil => exact .inl rfl
  | cons menuId menuIds ih =>
    cases hraised : raised menuId with
    | some e => exact .inr ⟨e, by simp [PopularMenuRedisCounter.countEach, zsetCount, hraised,
        Call.exec_bind]⟩
    | none =>
      rcases ih with hsame | ⟨e, herror⟩
      · exact .inl (by simp [PopularMenuRedisCounter.countEach, zsetCount, hraised,
          Call.exec_bind, hsame])
      · exact .inr ⟨e, by simp [PopularMenuRedisCounter.countEach, zsetCount, hraised,
          Call.exec_bind, herror]⟩

/-- `getFromRedis` either does not notice failures of Redis, or throws and sets the flag. -/
theorem getFromRedis_raised (raised : Long → Option Throwable) :
    (PopularMenuService.getFromRedis menus orders raised from_ to_).exec s =
        (PopularMenuService.getFromRedis menus orders (fun _ => none) from_ to_).exec s ∨
      ∃ e, (PopularMenuService.getFromRedis menus orders raised from_ to_).exec s =
        (.error e, { s with readModelStale := true }) := by
  cases hstale : s.readModelStale with
  | true =>
    exact .inl (by simp [PopularMenuService.getFromRedis, PopularMenuRedisCounter.countByMenuIds,
      Call.exec_bind, hstale])
  | false =>
    rcases countEach_raised s raised (PopularMenuRedisCounter.toEpochMicros from_)
      (PopularMenuRedisCounter.toEpochMicros to_)
      ((MenuRepository.findAllByOrderByIdAsc menus).map Menu.id) with hsame | ⟨e, herror⟩
    · exact .inl (by simp [PopularMenuService.getFromRedis, PopularMenuRedisCounter.countByMenuIds,
        Call.exec_bind, Call.exec_tryCatch, hstale, hsame])
    · exact .inr ⟨e, by simp [PopularMenuService.getFromRedis,
        PopularMenuRedisCounter.countByMenuIds, PopularMenuRedisCounter.setStale, Call.exec_bind,
        Call.exec_tryCatch, hstale, herror]⟩

/-- A read either does not notice failures of Redis, or falls back and sets the flag. -/
theorem getPopularMenus_raised (raised : Long → Option Throwable) (now : Instant) :
    (PopularMenuService.getPopularMenus menus orders raised now).exec s =
        (PopularMenuService.getPopularMenus menus orders (fun _ => none) now).exec s ∨
      (PopularMenuService.getPopularMenus menus orders raised now).exec s =
        (.ok (PopularMenuService.getFromDatabase menus orders (windowFrom now) (windowTo now)),
          { s with readModelStale := true }) := by
  have hread : ∀ raised, (PopularMenuService.getPopularMenus menus orders raised now).exec s =
      (tryCatch (PopularMenuService.getFromRedis menus orders raised (windowFrom now)
        (windowTo now)) fun _ => pure (PopularMenuService.getFromDatabase menus orders
          (windowFrom now) (windowTo now))).exec s := fun _ => rfl
  rcases getFromRedis_raised menus orders (windowFrom now) (windowTo now) s raised with
    hsame | ⟨e, herror⟩
  · exact .inl (by rw [hread, hread, Call.exec_tryCatch, Call.exec_tryCatch, hsame])
  · refine .inr ?_
    rw [hread, Call.exec_tryCatch, herror]
    rfl

end Redis

section State

variable (raised : Long → Option Throwable) (s : CounterState)

/-- The sorted sets after the order of an event was recorded. -/
def zaddOrder (redis : ZSets) (event : OrderPaidEvent) : ZSets :=
  Function.update redis event.menuId (zadd (redis event.menuId) event.orderId
    (doubleOfLong (PopularMenuRedisCounter.toEpochMicros event.orderedAt)))

/-- The Redis listener always returns. If Redis answers, its order is recorded and
the flag stays; otherwise the flag is set, and the order may be recorded or not. -/
theorem recordAfterCommit_exec (reply : ZaddReply) (event : OrderPaidEvent) :
    (PopularMenuRedisEventListener.recordAfterCommit reply event).exec s =
      (.ok (), match reply with
        | .ok => { s with redis := zaddOrder s.redis event }
        | .raised true _ => ⟨true, zaddOrder s.redis event⟩
        | .raised false _ => { s with readModelStale := true }) := by
  cases reply with
  | ok => rfl
  | raised applied exception => cases applied <;> rfl

/-- Reads do not change Redis. -/
theorem getPopularMenus_keeps_redis (menus : Menus) (orders : List (ℕ × Order)) (now : Instant) :
    Call.Keeps CounterState.redis
      (PopularMenuService.getPopularMenus menus orders raised now) := by
  have hcount : ∀ key min max, Call.Keeps CounterState.redis (zsetCount raised key min max) := by
    intro key min max
    unfold zsetCount
    cases raised key with
    | some exception => exact Call.keeps_throw exception
    | none => exact Call.keeps_get.bind fun _ => Call.keeps_pure _
  have heach : ∀ fromScore toScoreExclusive menuIds, Call.Keeps CounterState.redis
      (PopularMenuRedisCounter.countEach raised fromScore toScoreExclusive menuIds) := by
    intro fromScore toScoreExclusive menuIds
    induction menuIds with
    | nil => exact Call.keeps_pure _
    | cons menuId menuIds ih =>
      exact (hcount _ _ _).bind fun _ => ih.bind fun _ => Call.keeps_pure _
  have hcountBy : ∀ menuIds from_ to_, Call.Keeps CounterState.redis
      (PopularMenuRedisCounter.countByMenuIds raised menuIds from_ to_) := by
    intro menuIds from_ to_
    refine Call.keeps_get.bind fun counter => ?_
    split
    · exact Call.keeps_throw _
    · exact (heach _ _ _).tryCatch fun e =>
        Call.Keeps.bind (Call.keeps_modify fun _ => rfl) fun _ => Call.keeps_throw e
  refine Call.Keeps.tryCatch ?_ fun _ => Call.keeps_pure _
  refine (hcountBy _ _ _).bind fun counts => ?_
  split
  · exact Call.keeps_pure _
  · exact Call.keeps_pure _

end State

section Agreement

variable (menus : Menus) (orders : List (ℕ × Order)) (redis : ZSets)

/-- An order that has a member in the sorted set of its menu. -/
def Recorded (o : ℕ × Order) : Prop := o.1 ∈ (redis o.2.menuId).map Prod.fst

instance (o : ℕ × Order) : Decidable (Recorded redis o) :=
  inferInstanceAs (Decidable (_ ∈ List.map Prod.fst _))

/-- Every member of a sorted set stands for a different order of its menu and
carries the time of that order. -/
structure RedisSound : Prop where
  orders_nodup : (orders.map Prod.fst).Nodup
  members_nodup : ∀ menuId, ((redis menuId).map Prod.fst).Nodup
  member_order : ∀ menuId, ∀ e ∈ redis menuId, ∃ order, (e.1, order) ∈ orders ∧
    order.menuId = menuId ∧ order.createdAt.Exact ∧
    e.2 = doubleOfLong (PopularMenuRedisCounter.toEpochMicros order.createdAt)

/-- The orders of a menu that a read at `now` has to count. -/
def CountedFor (now : Instant) (menu : Menu) (o : ℕ × Order) : Prop :=
  InWindow (windowFrom now) (windowTo now) o.2.createdAt ∧ o.2.menuId = menu.id

instance (now : Instant) (menu : Menu) (o : ℕ × Order) : Decidable (CountedFor now menu o) :=
  inferInstanceAs (Decidable (_ ∧ _))

/-- Fewer than three menus have more orders in the window of a read, or as many
and a smaller id, and it has one itself. -/
def TopThree (now : Instant) (menu : Menu) : Prop :=
  OnBoard Menu.id (databaseCount orders (windowFrom now) (windowTo now)) 3 menus.rows menu

/-- The database counts just the orders that a read has to count. -/
theorem databaseCount_eq (now : Instant) (menu : Menu) :
    databaseCount orders (windowFrom now) (windowTo now) menu =
      (orders.filter fun o => CountedFor now menu o).length :=
  List.countP_eq_length_filter ..

variable {menus orders redis} (hsound : RedisSound orders redis) (now : Instant) (menu : Menu)

include hsound

/-- Redis counts the recorded orders of the menu in the window. -/
theorem redisCount_eq :
    redisCount redis (windowFrom now) (windowTo now) menu.id =
      (orders.filter fun o => CountedFor now menu o).countP fun o => Recorded redis o := by
  obtain ⟨hfrom, hto, hlt⟩ := window_exact now
  have hperm : (((redis menu.id).filter fun e =>
        doubleOfLong (PopularMenuRedisCounter.toEpochMicros (windowFrom now)) ≤ e.2 ∧
        e.2 ≤ doubleOfLong (PopularMenuRedisCounter.toEpochMicros (windowTo now) - 1)).map
          Prod.fst).Perm
      (((orders.filter fun o => CountedFor now menu o).filter fun o => Recorded redis o).map
        Prod.fst) := by
    refine (List.perm_ext_iff_of_nodup
      ((hsound.members_nodup menu.id).sublist (List.filter_sublist.map _))
      (hsound.orders_nodup.sublist
        ((List.filter_sublist.trans List.filter_sublist).map _))).mpr fun id => ?_
    constructor
    · intro hid
      obtain ⟨e, he, rfl⟩ := List.mem_map.mp hid
      obtain ⟨hmem, hscore⟩ := List.mem_filter.mp he
      obtain ⟨order, horder, hmenu, hexact, hvalue⟩ := hsound.member_order menu.id e hmem
      rw [decide_eq_true_eq, hvalue, score_inWindow hfrom hto hlt hexact] at hscore
      refine List.mem_map.mpr ⟨(e.1, order), ?_, rfl⟩
      simp only [List.mem_filter, decide_eq_true_eq]
      refine ⟨⟨horder, hscore, hmenu⟩, ?_⟩
      unfold Recorded
      rw [hmenu]
      exact List.mem_map_of_mem hmem
    · intro hid
      obtain ⟨o, ho, rfl⟩ := List.mem_map.mp hid
      simp only [List.mem_filter, decide_eq_true_eq] at ho
      obtain ⟨⟨hmem, hwindow, hmenu⟩, hrecorded⟩ := ho
      unfold Recorded at hrecorded
      rw [hmenu] at hrecorded
      obtain ⟨e, he, hid⟩ := List.mem_map.mp hrecorded
      obtain ⟨order, horder, -, hexact, hvalue⟩ := hsound.member_order menu.id e he
      obtain rfl : o = (e.1, order) :=
        List.inj_on_of_nodup_map hsound.orders_nodup hmem horder hid.symm
      refine List.mem_map.mpr ⟨e, List.mem_filter.mpr ⟨he, ?_⟩, rfl⟩
      rw [decide_eq_true_eq, hvalue, score_inWindow hfrom hto hlt hexact]
      exact hwindow
  have hlength := hperm.length_eq
  rw [List.length_map, List.length_map, ← List.countP_eq_length_filter,
    ← List.countP_eq_length_filter] at hlength
  exact hlength

/-- Redis never counts more orders than MySQL. -/
theorem redisCount_le :
    redisCount redis (windowFrom now) (windowTo now) menu.id ≤
      databaseCount orders (windowFrom now) (windowTo now) menu := by
  rw [redisCount_eq hsound, databaseCount_eq]
  exact List.countP_le_length

/-- Redis counts a menu like MySQL exactly if it has recorded every order. -/
theorem redisCount_eq_databaseCount_iff :
    redisCount redis (windowFrom now) (windowTo now) menu.id =
      databaseCount orders (windowFrom now) (windowTo now) menu ↔
      ∀ o ∈ orders, CountedFor now menu o → Recorded redis o := by
  rw [redisCount_eq hsound, databaseCount_eq, List.countP_eq_length]
  simp

/-- Redis counts nothing for a menu exactly if it has recorded none of its orders. -/
theorem redisCount_eq_zero_iff :
    redisCount redis (windowFrom now) (windowTo now) menu.id = 0 ↔
      ∀ o ∈ orders, CountedFor now menu o → ¬Recorded redis o := by
  rw [redisCount_eq hsound, List.countP_eq_zero]
  simp

omit hsound in
/-- **Agreement of a read.** A read without Redis failures returns what MySQL returns
exactly if the instance holds Redis for stale, or Redis has recorded no order of the
window, or it has recorded every order of the window for MySQL's top three menus. -/
theorem read_agrees_iff {s : CounterState} (hsound : RedisSound orders s.redis) :
    ((PopularMenuService.getPopularMenus menus orders (fun _ => none) now).exec s).1 =
        .ok (PopularMenuService.getFromDatabase menus orders (windowFrom now) (windowTo now)) ↔
      s.readModelStale = true ∨
      (∀ menu ∈ menus.rows, ∀ o ∈ orders, CountedFor now menu o → ¬Recorded s.redis o) ∨
      ∀ menu ∈ menus.rows, TopThree menus orders now menu →
        ∀ o ∈ orders, CountedFor now menu o → Recorded s.redis o := by
  have hle : ∀ menu ∈ menus.rows, redisCount s.redis (windowFrom now) (windowTo now) menu.id ≤
      databaseCount orders (windowFrom now) (windowTo now) menu :=
    fun menu _ => redisCount_le hsound now menu
  simp only [getPopularMenus_exec, ← redisCount_eq_zero_iff hsound,
    ← redisCount_eq_databaseCount_iff hsound]
  rw [← or_assoc]
  split
  · rename_i hfallback
    simp [hfallback]
  · rename_i hredis
    rw [or_iff_right hredis, Except.ok.injEq, PopularMenuService.getFromDatabase,
      findPopularMenus_eq, List.map_map]
    constructor
    · intro h
      refine (board_eq_iff (n := 3) menus.nodup hle).mp ?_
      have hpairs := congrArg (List.map fun r : PopularMenuResponse => (r.menuId, r.orderCount)) h
      simpa only [List.map_map, Function.comp_def, PopularMenuResponse.from] using hpairs
    · intro h
      have hright : ∀ menu ∈ board Menu.id
          (databaseCount orders (windowFrom now) (windowTo now)) 3 menus.rows,
          redisCount s.redis (windowFrom now) (windowTo now) menu.id =
            databaseCount orders (windowFrom now) (windowTo now) menu := by
        intro menu hmenu
        obtain ⟨hmem, htop⟩ := (mem_board menus.nodup).mp hmenu
        exact h menu hmem htop
      rw [board_congr menus.nodup hle hright]
      refine List.map_congr_left fun menu hmenu => ?_
      rw [hright menu hmenu, Function.comp_apply, PopularMenuResponse.from]

end Agreement

section Complete

variable {menus : Menus} {orders : List (ℕ × Order)} {s : CounterState} {to_ : LocalDateTime}

/-- The sorted set of each menu has exactly one member for each order of the menu, with the
microseconds of the order as its score. -/
def HoldsOrders (menus : Menus) (orders : List (ℕ × Order)) (redis : ZSets) : Prop :=
  ∀ menu ∈ menus.rows, (redis menu.id).Perm
    ((orders.filter fun o => o.2.menuId = menu.id).map fun o =>
      (o.1, doubleOfLong (PopularMenuRedisCounter.toEpochMicros o.2.createdAt)))

/-- Complete sorted sets count like the query. -/
theorem HoldsOrders.redisCount_eq {redis : ZSets} {from_ : LocalDateTime}
    (h : HoldsOrders menus orders redis) (horders : ∀ o ∈ orders, o.2.createdAt.Exact)
    (hfrom : from_.Exact) (hto : to_.Exact) (hlt : from_ < to_) {menu : Menu}
    (hmenu : menu ∈ menus.rows) :
    redisCount redis from_ to_ menu.id = databaseCount orders from_ to_ menu := by
  rw [redisCount, zcount, (h menu hmenu).countP_eq, List.countP_map, List.countP_filter,
    databaseCount]
  refine List.countP_congr fun o ho => ?_
  have hscore := score_inWindow hfrom hto hlt (horders o ho)
  rw [Bool.and_eq_true, decide_eq_true_eq, decide_eq_true_eq, Function.comp_apply,
    decide_eq_true_eq, hscore]

/-- **The Redis ranking is the SQL ranking.** If the sorted sets hold exactly the orders,
`getFromRedis` returns what `findPopularMenus` returns whenever it returns, and it returns
unless the flag is set or Redis throws. -/
theorem getFromRedis_eq_findPopularMenus (horders : ∀ o ∈ orders, o.2.createdAt.Exact)
    (hto : to_.Exact) (hfrom : (to_.minusDays 7).Exact)
    (hredis : HoldsOrders menus orders s.redis) :
    (∀ raised rows t,
      (PopularMenuService.getFromRedis menus orders raised (to_.minusDays 7) to_).exec s =
        (.ok rows, t) →
      rows = (OrderRepository.findPopularMenus menus orders (to_.minusDays 7) to_).map
        PopularMenuResponse.from) ∧
    (s.readModelStale = false →
      (PopularMenuService.getFromRedis menus orders (fun _ => none) (to_.minusDays 7) to_).exec s =
        (.ok ((OrderRepository.findPopularMenus menus orders (to_.minusDays 7) to_).map
          PopularMenuResponse.from), s)) := by
  have hlt : to_.minusDays 7 < to_ := by
    show to_.epochMicros - 7 * 86400000000 < to_.epochMicros
    omega
  have hfresh : s.readModelStale = false →
      (PopularMenuService.getFromRedis menus orders (fun _ => none) (to_.minusDays 7) to_).exec s =
        (.ok ((OrderRepository.findPopularMenus menus orders (to_.minusDays 7) to_).map
          PopularMenuResponse.from), s) := by
    intro hfresh
    have hcount : ∀ menu ∈ menus.rows, redisCount s.redis (to_.minusDays 7) to_ menu.id =
        databaseCount orders (to_.minusDays 7) to_ menu :=
      fun menu hmenu => hredis.redisCount_eq horders hfrom hto hlt hmenu
    rw [getFromRedis_exec menus orders _ _ s hfresh]
    split
    · rfl
    · rw [findPopularMenus_eq, List.map_map, board_congr menus.nodup (fun menu hmenu =>
        (hcount menu hmenu).le) fun menu hmenu => hcount menu ((mem_board menus.nodup).mp hmenu).1]
      refine congrArg (fun rows => (Except.ok rows, s)) (List.map_congr_left fun menu hmenu => ?_)
      rw [hcount menu ((mem_board menus.nodup).mp hmenu).1, Function.comp_apply,
        PopularMenuResponse.from]
  refine ⟨fun raised rows t hrun => ?_, hfresh⟩
  rcases getFromRedis_raised menus orders (to_.minusDays 7) to_ s raised with hsame | ⟨e, herror⟩
  · cases hstale : s.readModelStale with
    | true =>
      have hstop : (PopularMenuService.getFromRedis menus orders raised (to_.minusDays 7) to_).exec
          s = (.error (.IllegalStateException "Redis 인기 메뉴 read model이 stale 상태입니다."), s) := by
        simp [PopularMenuService.getFromRedis, PopularMenuRedisCounter.countByMenuIds,
          Call.exec_bind, hstale]
      rw [hstop] at hrun
      exact absurd (congrArg Prod.fst hrun) nofun
    | false =>
      rw [hsame, hfresh hstale] at hrun
      exact (Except.ok.inj (congrArg Prod.fst hrun)).symm
  · rw [herror] at hrun
    exact absurd (congrArg Prod.fst hrun) nofun

/-- Seven days after 1970 began. -/
def weekEnd : LocalDateTime := ⟨604800000000⟩

/-- Orders on both ends of the week, one of them too late, and a tie between two menus. -/
def boundaryOrders : List (ℕ × Order) :=
  [(1, ⟨1, 1, 4500, ⟨0⟩⟩), (2, ⟨1, 2, 5000, ⟨604799999999⟩⟩), (3, ⟨1, 2, 5000, weekEnd⟩)]

/-- The order at the start of the window counts, the one at its end does not. -/
theorem getFromRedis_eq_findPopularMenus_boundary :
    ∃ (menus : Menus) (redis : ZSets), HoldsOrders menus boundaryOrders redis ∧
      ((PopularMenuService.getFromRedis menus boundaryOrders (fun _ => none) (weekEnd.minusDays 7)
        weekEnd).exec ⟨false, redis⟩).1 = .ok [⟨1, "아메리카노", 1⟩, ⟨2, "카페라떼", 1⟩] := by
  let menus : Menus := ⟨[⟨1, "아메리카노", 4500⟩, ⟨2, "카페라떼", 5000⟩], by decide⟩
  let redis : ZSets := fun menuId =>
    if menuId = 1 then [(1, 0)]
    else if menuId = 2 then [(3, 604800000000), (2, 604799999999)] else []
  have hredis : HoldsOrders menus boundaryOrders redis := by
    refine List.forall_mem_cons.mpr ⟨?_, List.forall_mem_singleton.mpr ?_⟩ <;> decide +kernel
  have horders : ∀ o ∈ boundaryOrders, o.2.createdAt.Exact := by
    simp [boundaryOrders, weekEnd, LocalDateTime.Exact]
  have hto : weekEnd.Exact := ⟨by decide, by decide⟩
  have hfrom : (weekEnd.minusDays 7).Exact := ⟨by decide, by decide⟩
  have hread := (getFromRedis_eq_findPopularMenus (s := ⟨false, redis⟩) horders hto hfrom
    hredis).2 rfl
  have hrows : (OrderRepository.findPopularMenus menus boundaryOrders (weekEnd.minusDays 7)
      weekEnd).map PopularMenuResponse.from = [⟨1, "아메리카노", 1⟩, ⟨2, "카페라떼", 1⟩] := by
    decide +kernel
  exact ⟨menus, redis, hredis, by rw [hread, hrows]⟩

end Complete

end CoffeeOrder.Shop
