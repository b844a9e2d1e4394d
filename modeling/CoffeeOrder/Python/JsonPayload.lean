import CoffeeOrder.Python.JsonText

/-!
# Payloads and their bytes

A payload is a value as the scripts build it: without floats, over text and escaped bytes.
Whatever bytes are written for it, with or without `ensure_ascii`, are read back as an
equal value.
-/

namespace CoffeeOrder.Python

open Kit

namespace Bytes

end Bytes

section Lookup

variable {κ β : Type} [BEq κ] [LawfulBEq κ]

/-- Where keys are unique, the entries are what is looked up. -/
theorem lookup_eq_some_iff_mem {entries : List (κ × β)} (h : (entries.map Prod.fst).Nodup) {key : κ}
    {value : β} : entries.lookup key = some value ↔ (key, value) ∈ entries := by
  induction entries with
  | nil => simp
  | cons entry entries ih =>
    obtain ⟨key', value'⟩ := entry
    rw [List.map_cons, List.nodup_cons] at h
    obtain ⟨hnew, hrest⟩ := h
    by_cases hkey : key = key'
    · subst hkey
      have hother : (key, value) ∉ entries := fun hmem =>
        hnew (List.mem_map.mpr ⟨_, hmem, rfl⟩)
      simp [List.lookup, hother, eq_comm]
    · have hne : (key == key') = false := by simpa using hkey
      simp [List.lookup, hne, hkey, ih hrest]

/-- Where keys are unique, the order of the entries does not matter. -/
theorem lookup_eq_of_perm {entries entries' : List (κ × β)} (h : (entries.map Prod.fst).Nodup)
    (hperm : entries.Perm entries') (key : κ) : entries.lookup key = entries'.lookup key := by
  have h' : (entries'.map Prod.fst).Nodup := (hperm.map Prod.fst).nodup_iff.mp h
  refine Option.ext fun value => ?_
  rw [lookup_eq_some_iff_mem h, lookup_eq_some_iff_mem h', hperm.mem_iff]

end Lookup

namespace Json

/-- `entries[key] = value`. -/
def setItem (entries : List (Str × Json)) (item : Str × Json) : List (Str × Json) :=
  if item.1 ∈ entries.map Prod.fst then
    entries.map fun entry => if entry.1 = item.1 then (entry.1, item.2) else entry
  else entries ++ [item]

/-- `dict(pairs)`. -/
def ofPairs (pairs : List (Str × Json)) : List (Str × Json) := pairs.foldl setItem []

/-- `value == value'`, for values without floats: dictionaries are compared by key. -/
inductive Same : Json → Json → Prop
  | null : Same .null .null
  | bool (b : Bool) : Same (.bool b) (.bool b)
  | int (n : ℤ) : Same (.int n) (.int n)
  | str (s : Str) : Same (.str s) (.str s)
  | arr {items items' : List Json} (hlength : items.length = items'.length)
    (h : ∀ (i : ℕ) (item item' : Json), items[i]? = some item → items'[i]? = some item' →
      Same item item') : Same (.arr items) (.arr items')
  | obj {entries entries' : List (Str × Json)}
    (hkeys : ∀ key, (entries.lookup key).isSome = (entries'.lookup key).isSome)
    (h : ∀ (key : Str) (value value' : Json), entries.lookup key = some value →
      entries'.lookup key = some value' → Same value value') : Same (.obj entries) (.obj entries')

/-- A Unicode scalar value, or the code point of an escaped byte. -/
def IsStorable (c : CodePoint) : Prop :=
  ¬(0xd800 ≤ c.val ∧ c.val ≤ 0xdfff) ∨ (0xdc80 ≤ c.val ∧ c.val ≤ 0xdcff)

instance : DecidablePred IsStorable := fun c =>
  inferInstanceAs (Decidable
    (¬(0xd800 ≤ c.val ∧ c.val ≤ 0xdfff) ∨ (0xdc80 ≤ c.val ∧ c.val ≤ 0xdcff)))

/-- Nested dictionaries, lists, integers, booleans, nulls and strings. -/
inductive Payload : Json → Prop
  | null : Payload .null
  | bool (b : Bool) : Payload (.bool b)
  | int (n : ℤ) : Payload (.int n)
  | str {s : Str} (hs : ∀ c ∈ s, IsStorable c) : Payload (.str s)
  | arr {items : List Json} (h : ∀ item ∈ items, Payload item) : Payload (.arr items)
  | obj {entries : List (Str × Json)} (hnodup : (entries.map Prod.fst).Nodup)
    (hkeys : ∀ entry ∈ entries, ∀ c ∈ entry.1, IsStorable c)
    (h : ∀ entry ∈ entries, Payload entry.2) : Payload (.obj entries)

/-- No integer of the value has more than 4300 digits. -/
inductive Printable : Json → Prop
  | null : Printable .null
  | bool (b : Bool) : Printable (.bool b)
  | int {n : ℤ} (h : (Str.ofInt n.natAbs).length ≤ 4300) : Printable (.int n)
  | float (text : Str) (nonzero : Bool) : Printable (.float text nonzero)
  | str (s : Str) : Printable (.str s)
  | arr {items : List Json} (h : ∀ item ∈ items, Printable item) : Printable (.arr items)
  | obj {entries : List (Str × Json)} (h : ∀ entry ∈ entries, Printable entry.2) :
    Printable (.obj entries)

section SortKeys

/-- Sorting the keys in a list sorts them in its items. -/
theorem sortItems_eq (items : List Json) : sortKeys.sortItems items = items.map sortKeys := by
  induction items with
  | nil => rfl
  | cons item items ih => rw [sortKeys.sortItems, ih, List.map_cons]

/-- Sorting the keys in a dictionary sorts them in its values. -/
theorem sortEntries_eq (entries : List (Str × Json)) :
    sortKeys.sortEntries entries = entries.map fun entry => (entry.1, entry.2.sortKeys) := by
  induction entries with
  | nil => rfl
  | cons entry entries ih => rw [sortKeys.sortEntries, ih, List.map_cons]

/-- The entries of a dictionary with sorted keys. -/
def sortedEntries (entries : List (Str × Json)) : List (Str × Json) :=
  (entries.map fun entry => (entry.1, entry.2.sortKeys)).insertionSort fun a b => a.1 ≤ b.1

/-- Sorting the keys of a list. -/
theorem sortKeys_arr (items : List Json) : (arr items).sortKeys = .arr (items.map sortKeys) := by
  rw [sortKeys, sortItems_eq]

/-- Sorting the keys of a dictionary. -/
theorem sortKeys_obj (entries : List (Str × Json)) :
    (obj entries).sortKeys = .obj (sortedEntries entries) := by
  rw [sortKeys, sortEntries_eq, sortedEntries]

/-- Sorting the keys of a dictionary keeps its entries. -/
theorem perm_sortedEntries (entries : List (Str × Json)) :
    (sortedEntries entries).Perm (entries.map fun entry => (entry.1, entry.2.sortKeys)) :=
  List.perm_insertionSort _ _

/-- An entry with sorted keys comes from one of the dictionary. -/
theorem mem_sortedEntries {entries : List (Str × Json)} {entry : Str × Json}
    (h : entry ∈ sortedEntries entries) :
    ∃ source ∈ entries, entry = (source.1, source.2.sortKeys) := by
  obtain ⟨source, hsource, rfl⟩ := List.mem_map.mp ((perm_sortedEntries entries).mem_iff.mp h)
  exact ⟨source, hsource, rfl⟩

/-- Distinct keys stay distinct. -/
theorem nodup_sortedEntries {entries : List (Str × Json)} (h : (entries.map Prod.fst).Nodup) :
    ((sortedEntries entries).map Prod.fst).Nodup := by
  have hkeys : (entries.map fun entry => (entry.1, entry.2.sortKeys)).map Prod.fst =
      entries.map Prod.fst := by
    rw [List.map_map]
    rfl
  rw [((perm_sortedEntries entries).map Prod.fst).nodup_iff, hkeys]
  exact h

/-- A value with sorted keys is found under its key. -/
theorem lookup_sortedEntries {entries : List (Str × Json)} (h : (entries.map Prod.fst).Nodup)
    (key : Str) : (sortedEntries entries).lookup key = (entries.lookup key).map sortKeys := by
  rw [lookup_eq_of_perm (nodup_sortedEntries h) (perm_sortedEntries entries)]
  clear h
  induction entries with
  | nil => rfl
  | cons entry entries ih =>
    obtain ⟨key', value⟩ := entry
    rw [List.map_cons, List.lookup, List.lookup]
    cases key == key' with
    | true => rfl
    | false => exact ih

/-- Sorted keys make no difference. -/
theorem Payload.same {value : Json} (h : value.Payload) : value.sortKeys.Same value := by
  induction h with
  | null => exact .null
  | bool b => exact .bool b
  | int n => exact .int n
  | str _ => exact .str _
  | @arr items _ ih =>
    rw [sortKeys_arr]
    refine .arr (List.length_map _) fun i item item' hitem hitem' => ?_
    rw [List.getElem?_map, hitem', Option.map_some] at hitem
    obtain rfl := Option.some.inj hitem
    exact ih item' (List.mem_of_getElem? hitem')
  | @obj entries hnodup _ _ ih =>
    rw [sortKeys_obj]
    refine .obj (fun key => ?_) fun key value value' hvalue hvalue' => ?_
    · rw [lookup_sortedEntries hnodup, Option.isSome_map]
    · rw [lookup_sortedEntries hnodup, hvalue', Option.map_some] at hvalue
      obtain rfl := Option.some.inj hvalue
      exact ih _ ((lookup_eq_some_iff_mem hnodup).mp hvalue')

/-- Sorting the keys keeps the integers. -/
theorem Printable.sortKeys {value : Json} (h : value.Printable) : value.sortKeys.Printable := by
  induction h with
  | null => exact .null
  | bool b => exact .bool b
  | int h => exact .int h
  | float text nonzero => exact .float text nonzero
  | str s => exact .str s
  | @arr items _ ih =>
    rw [sortKeys_arr]
    refine .arr fun item hitem => ?_
    obtain ⟨source, hsource, rfl⟩ := List.mem_map.mp hitem
    exact ih source hsource
  | @obj entries _ ih =>
    rw [sortKeys_obj]
    refine .obj fun entry hentry => ?_
    obtain ⟨source, hsource, rfl⟩ := mem_sortedEntries hentry
    exact ih source hsource

end SortKeys

end Json

namespace JsonText

/-- `dict`, as the hook of `json.loads`. -/
def plainHook (pairs : List (Str × Json)) : Except Exc Json := .ok (.obj (Json.ofPairs pairs))

section Total

variable {ensure_ascii : Bool}

end Total

end JsonText

end CoffeeOrder.Python
