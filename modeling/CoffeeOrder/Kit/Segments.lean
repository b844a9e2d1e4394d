import Mathlib.Data.List.Infix

/-!
# Segments of a separated list

Splitting at a separator turns the prefixes that end at a separator into prefixes of
the list of segments, and reads segments back that are each followed by a separator.
-/

namespace CoffeeOrder.Kit

variable {α : Type}

/-- Joining two nonempty lists of segments puts one separator between them. -/
theorem intercalate_append {sep : List α} {first second : List (List α)} (hfirst : first ≠ [])
    (hsecond : second ≠ []) : sep.intercalate (first ++ second) =
      sep.intercalate first ++ sep ++ sep.intercalate second := by
  induction first with
  | nil => exact absurd rfl hfirst
  | cons segment first ih =>
    rcases eq_or_ne first [] with rfl | hne
    · rw [List.singleton_append, List.intercalate_cons_of_ne_nil hsecond,
        List.intercalate_singleton]
    · rw [List.cons_append, List.intercalate_cons_of_ne_nil (by simp [hne]),
        List.intercalate_cons_of_ne_nil hne, ih hne]
      simp only [List.append_assoc]

/-- What stands behind the last separator is determined. -/
theorem append_cons_right_inj {sep : α} {xs ys first second : List α} (hfirst : sep ∉ first)
    (hsecond : sep ∉ second) (h : xs ++ sep :: first = ys ++ sep :: second) : first = second := by
  obtain ⟨between, -, hbehind⟩ | ⟨between, -, hbehind⟩ := List.append_eq_append_iff.mp h
  · cases between with
    | nil => exact (List.cons.inj hbehind).2
    | cons x between =>
      obtain ⟨-, rfl⟩ := List.cons.inj hbehind
      exact absurd (List.mem_append_right _ List.mem_cons_self) hfirst
  · cases between with
    | nil => exact (List.cons.inj hbehind).2.symm
    | cons x between =>
      obtain ⟨-, rfl⟩ := List.cons.inj hbehind
      exact absurd (List.mem_append_right _ List.mem_cons_self) hsecond

/-- What is joined comes from the separator or from a segment. -/
theorem mem_intercalate {sep : List α} {segments : List (List α)} {x : α}
    (h : x ∈ sep.intercalate segments) : x ∈ sep ∨ ∃ segment ∈ segments, x ∈ segment := by
  induction segments with
  | nil => exact absurd h List.not_mem_nil
  | cons segment segments ih =>
    rcases eq_or_ne segments [] with rfl | hne
    · exact .inr ⟨segment, List.mem_cons_self, by rwa [List.intercalate_singleton] at h⟩
    · rw [List.intercalate_cons_of_ne_nil hne, List.append_assoc, List.mem_append,
        List.mem_append] at h
      obtain h | h | h := h
      · exact .inr ⟨segment, List.mem_cons_self, h⟩
      · exact .inl h
      · exact (ih h).imp_right fun ⟨s, hs, hx⟩ => ⟨s, List.mem_cons_of_mem _ hs, hx⟩

/-- What is in a segment is in what is joined. -/
theorem mem_intercalate_of_mem {sep : List α} {segments : List (List α)} {segment : List α}
    (h : segment ∈ segments) {x : α} (hx : x ∈ segment) : x ∈ sep.intercalate segments := by
  induction segments with
  | nil => exact absurd h List.not_mem_nil
  | cons first segments ih =>
    rcases eq_or_ne segments [] with rfl | hne
    · rwa [List.intercalate_singleton, ← List.mem_singleton.mp h]
    · rw [List.intercalate_cons_of_ne_nil hne, List.append_assoc, List.mem_append, List.mem_append]
      obtain rfl | h := List.mem_cons.mp h
      · exact .inl hx
      · exact .inr (.inr (ih h))

/-- What is in a segment of a list is in the list. -/
theorem mem_of_mem_segment [BEq α] [LawfulBEq α] {sep : α} {xs segment : List α}
    (h : segment ∈ xs.splitOn sep) {x : α} (hx : x ∈ segment) : x ∈ xs := by
  have hxs : [sep].intercalate (xs.splitOn sep) = xs := List.intercalate_splitOn sep
  rw [← hxs]
  exact mem_intercalate_of_mem h hx

/-- An element of a list is a separator or lies in a segment. -/
theorem mem_splitOn [BEq α] [LawfulBEq α] (sep : α) {xs : List α} {x : α} (h : x ∈ xs) :
    x = sep ∨ ∃ segment ∈ xs.splitOn sep, x ∈ segment := by
  have hxs : [sep].intercalate (xs.splitOn sep) = xs := List.intercalate_splitOn sep
  rw [← hxs] at h
  exact (mem_intercalate h).imp_left List.eq_of_mem_singleton

/-- No segment holds the separator. -/
theorem not_mem_segment [BEq α] [LawfulBEq α] {sep : α} (xs : List α) :
    ∀ segment ∈ xs.splitOn sep, sep ∉ segment := by
  induction xs with
  | nil => simp
  | cons x xs ih =>
    obtain ⟨first, rest, hsegments⟩ := List.exists_cons_of_ne_nil (List.splitOn_ne_nil sep xs)
    rw [List.splitOn_cons_eq_if_modifyHead, hsegments, List.modifyHead_cons]
    rw [hsegments] at ih
    obtain ⟨hfirst, hrest⟩ := List.forall_mem_cons.mp ih
    split
    · exact List.forall_mem_cons.mpr ⟨List.not_mem_nil, ih⟩
    · next hx =>
      have hne : sep ≠ x := fun h => hx (beq_iff_eq.mpr h.symm)
      exact List.forall_mem_cons.mpr ⟨List.not_mem_cons_of_ne_of_not_mem hne hfirst, hrest⟩

/-- The segments of `xs` come first in those of `ys` if `ys` is `xs`, or goes on with a
separator after it. -/
theorem splitOn_prefix_iff [BEq α] [LawfulBEq α] {sep : α} {xs ys : List α} :
    xs.splitOn sep <+: ys.splitOn sep ↔ ys = xs ∨ xs ++ [sep] <+: ys := by
  constructor
  · rintro ⟨rest, hrest⟩
    have hys : [sep].intercalate (xs.splitOn sep ++ rest) = ys := by
      rw [hrest, List.intercalate_splitOn]
    rcases eq_or_ne rest [] with rfl | hne
    · left
      rw [← hys, List.append_nil, List.intercalate_splitOn]
    · right
      rw [intercalate_append (List.splitOn_ne_nil sep xs) hne, List.intercalate_splitOn] at hys
      exact ⟨_, hys⟩
  · rintro (rfl | ⟨rest, rfl⟩)
    · exact List.prefix_rfl
    · rw [List.append_assoc, List.singleton_append, List.splitOn_append_cons_self]
      exact List.prefix_append _ _

/-- What begins two lists that part somewhere ends before they part. -/
theorem prefix_of_parting {xs common rest rest' : List α} {a b : α} (hne : a ≠ b)
    (ha : xs <+: common ++ a :: rest) (hb : xs <+: common ++ b :: rest') : xs <+: common := by
  obtain h | ⟨more, rfl⟩ := List.prefix_or_prefix_of_prefix ha (List.prefix_append common _)
  · exact h
  · rw [List.prefix_append_right_inj] at ha hb
    cases more with
    | nil => exact (List.append_nil common).symm ▸ List.prefix_rfl
    | cons x more =>
      exact absurd ((List.cons_prefix_cons.mp ha).1.symm.trans (List.cons_prefix_cons.mp hb).1) hne

/-- What does not hold the separator lies on one side of it. -/
theorem infix_append_cons_iff {sep : α} {part before_ after_ : List α} (h : sep ∉ part) :
    part <:+: before_ ++ sep :: after_ ↔ part <:+: before_ ∨ part <:+: after_ := by
  constructor
  · rintro ⟨first, last, heq⟩
    rw [List.append_assoc] at heq
    obtain ⟨middle, rfl, hrest⟩ | ⟨middle, rfl, hrest⟩ := List.append_eq_append_iff.mp heq
    · obtain ⟨more, rfl, -⟩ | ⟨more, hpart, hsep⟩ := List.append_eq_append_iff.mp hrest
      · exact .inl ⟨first, more, List.append_assoc _ _ _⟩
      · cases more with
        | nil => exact .inl ⟨first, [], by simp [hpart]⟩
        | cons x more =>
          obtain ⟨rfl, -⟩ := List.cons.inj hsep
          exact absurd (hpart ▸ List.mem_append_right _ List.mem_cons_self) h
    · cases middle with
      | nil =>
        rcases part with _ | ⟨x, part⟩
        · exact .inl (List.nil_infix)
        · obtain ⟨rfl, -⟩ := List.cons.inj hrest
          exact absurd List.mem_cons_self h
      | cons x middle =>
        obtain ⟨rfl, hafter⟩ := List.cons.inj hrest
        exact .inr ⟨middle, last, (List.append_assoc _ _ _).trans hafter.symm⟩
  · rintro (h | h)
    · exact List.infix_append_of_infix_left h
    · exact List.infix_append_of_infix_right (List.infix_cons h)

/-- The segments, each with a separator after it. -/
def terminated (sep : α) (segments : List (List α)) : List α :=
  segments.flatMap fun segment => segment ++ [sep]

/-- Without its last separator, a terminated list is the joined one. -/
theorem terminated_eq_intercalate {sep : α} {segments : List (List α)} (h : segments ≠ []) :
    terminated sep segments = [sep].intercalate segments ++ [sep] := by
  induction segments with
  | nil => exact absurd rfl h
  | cons segment segments ih =>
    rcases eq_or_ne segments [] with rfl | hne
    · simp [terminated]
    · rw [List.intercalate_cons_of_ne_nil hne, List.append_assoc, List.append_assoc, ← ih hne]
      simp [terminated]

/-- Some segments, each with its terminator, are not nothing. -/
theorem terminated_ne_nil {sep : α} {segments : List (List α)} (h : segments ≠ []) :
    terminated sep segments ≠ [] := by
  rw [terminated_eq_intercalate h]
  exact List.append_ne_nil_of_right_ne_nil _ (List.cons_ne_nil _ _)

/-- A terminated list of segments without the separator is read back. -/
theorem splitOn_terminated [BEq α] [LawfulBEq α] {sep : α} {segments : List (List α)}
    (h : segments ≠ []) (hsep : ∀ segment ∈ segments, sep ∉ segment) :
    (terminated sep segments).getLast? = some sep ∧
      (terminated sep segments).dropLast.splitOn sep = segments := by
  rw [terminated_eq_intercalate h, List.getLast?_append_of_ne_nil _ (List.cons_ne_nil _ _),
    List.dropLast_concat]
  exact ⟨rfl, List.splitOn_intercalate sep hsep h⟩

/-- Different lists of segments without the separator differ when they are terminated. -/
theorem terminated_inj [BEq α] [LawfulBEq α] {sep : α} {segments segments' : List (List α)}
    (hsep : ∀ segment ∈ segments, sep ∉ segment) (hsep' : ∀ segment ∈ segments', sep ∉ segment)
    (h : terminated sep segments = terminated sep segments') : segments = segments' := by
  have hnil {segments : List (List α)} : terminated sep segments = [] → segments = [] := by
    contrapose!
    exact terminated_ne_nil
  by_cases hne : segments = []
  · rw [hne] at h
    exact hne.trans (hnil h.symm).symm
  · have hne' : segments' ≠ [] := fun hsegments' => by
      rw [hsegments'] at h
      exact hne (hnil h)
    have hread := (splitOn_terminated hne hsep).2
    have hread' := (splitOn_terminated hne' hsep').2
    rw [h] at hread
    exact hread.symm.trans hread'

end CoffeeOrder.Kit
