import Mathlib.Data.List.Sort
import Mathlib.Data.List.Perm.Subperm
import Mathlib.Order.Defs.LinearOrder

/-!
# Leaderboards

A leaderboard lists the `n` best of finitely many contestants by score, ties
broken by key, contestants without a score left out. The main result compares
the board of the true scores with the board of scores that may be too low: they
agree exactly if the lower scores are right for everybody on the true board.
-/

namespace CoffeeOrder.Kit

variable {α κ : Type*} [LinearOrder κ] (key : α → κ) (score : α → ℕ)

/-- A higher score beats a lower one, and the smaller key wins a tie. -/
def Beats (a b : α) : Prop := score b < score a ∨ score a = score b ∧ key a < key b

/-- The order in which a leaderboard is sorted. -/
def Ahead (a b : α) : Prop := score b < score a ∨ score a = score b ∧ key a ≤ key b

instance : DecidableRel (Beats key score) :=
  fun _ _ => inferInstanceAs (Decidable (_ ∨ _))

instance : DecidableRel (Ahead key score) :=
  fun _ _ => inferInstanceAs (Decidable (_ ∨ _))

/-- The `n` best contestants that have a score. -/
def board (n : ℕ) (l : List α) : List α :=
  ((l.filter fun a => 0 < score a).insertionSort (Ahead key score)).take n

/-- Having a score, and fewer than `n` contestants that do better. -/
def OnBoard (n : ℕ) (l : List α) (a : α) : Prop :=
  0 < score a ∧ (l.filter fun b => Beats key score b a).length < n

variable {key score} {n : ℕ} {l : List α} {a b : α}

/-- Nothing beats itself. -/
theorem Beats.irrefl (a : α) : ¬Beats key score a a := by
  simp [Beats]

/-- Of two elements at most one beats the other. -/
theorem Beats.asymm (h : Beats key score a b) : ¬Beats key score b a := by
  rintro (hba | ⟨hba, hkey⟩)
  · rcases h with h | ⟨h, -⟩ <;> omega
  · rcases h with h | ⟨-, hkey'⟩
    · omega
    · exact lt_asymm hkey hkey'

instance : Std.Total (Ahead key score) where
  total a b := by
    rcases lt_trichotomy (score a) (score b) with h | h | h
    · exact .inr (.inl h)
    · rcases le_total (key a) (key b) with hkey | hkey
      · exact .inl (.inr ⟨h, hkey⟩)
      · exact .inr (.inr ⟨h.symm, hkey⟩)
    · exact .inl (.inl h)

instance : IsTrans α (Ahead key score) where
  trans a b c := by
    rintro (hab | ⟨hab, hkey⟩) (hbc | ⟨hbc, hkey'⟩)
    · exact .inl (by omega)
    · exact .inl (by omega)
    · exact .inl (by omega)
    · exact .inr ⟨by omega, hkey.trans hkey'⟩

/-- Among contestants with different keys, being ahead is beating. -/
theorem Ahead.beats (h : Ahead key score a b) (hkey : key a ≠ key b) : Beats key score a b := by
  rcases h with h | ⟨h, hle⟩
  · exact .inl h
  · exact .inr ⟨h, lt_of_le_of_ne hle hkey⟩

/-- In a list in descending order nothing occurs twice. -/
theorem Beats.nodup (h : l.Pairwise (Beats key score)) : l.Nodup :=
  h.imp fun hab => by
    rintro rfl
    exact Beats.irrefl _ hab

/-- The first `n` of a sorted list are those that fewer than `n` others beat. -/
theorem mem_take_of_pairwise {sorted : List α} (h : sorted.Pairwise (Beats key score)) (n : ℕ) :
    a ∈ sorted.take n ↔
      a ∈ sorted ∧ (sorted.filter fun b => Beats key score b a).length < n := by
  induction sorted generalizing n with
  | nil => simp
  | cons b sorted ih =>
    obtain ⟨hb, hsorted⟩ := List.pairwise_cons.mp h
    cases n with
    | zero => simp
    | succ n =>
      rw [List.take_succ_cons, List.mem_cons, List.mem_cons, ih hsorted]
      by_cases hab : a = b
      · subst hab
        have hnone : (sorted.filter fun b => Beats key score b a) = [] :=
          List.filter_eq_nil_iff.mpr fun c hc => by simpa using (hb c hc).asymm
        simp [hnone, Beats.irrefl]
      · by_cases hmem : a ∈ sorted
        · simp [hab, hmem, hb a hmem]
        · simp [hab, hmem]

/-- Contestants with different keys are sorted in one way. -/
theorem pairwise_insertionSort_ahead (hnodup : (l.map key).Nodup) :
    (l.insertionSort (Ahead key score)).Pairwise (Beats key score) := by
  have hkeys : (l.insertionSort (Ahead key score)).Pairwise fun a b => key a ≠ key b :=
    List.pairwise_map.mp (((List.perm_insertionSort _ l).map key).nodup_iff.mpr hnodup)
  exact ((List.pairwise_insertionSort (Ahead key score) l).and hkeys).imp fun h => h.1.beats h.2

/-- With distinct keys, sorting does not depend on the order of the input. -/
theorem insertionSort_perm {l' : List α} (hnodup : (l.map key).Nodup) (hperm : l.Perm l') :
    l.insertionSort (Ahead key score) = l'.insertionSort (Ahead key score) := by
  have hsorted := (List.perm_insertionSort (Ahead key score) l).trans
    (hperm.trans (List.perm_insertionSort (Ahead key score) l').symm)
  exact hsorted.eq_of_pairwise (fun a b _ _ hab hba => absurd hba hab.asymm)
    (pairwise_insertionSort_ahead hnodup)
    (pairwise_insertionSort_ahead ((hperm.map key).nodup_iff.mp hnodup))

section Board

variable (hnodup : (l.map key).Nodup)

include hnodup

/-- The contestants with a score, sorted: nobody is listed twice. -/
theorem pairwise_sorted :
    ((l.filter fun a => 0 < score a).insertionSort (Ahead key score)).Pairwise
      (Beats key score) :=
  pairwise_insertionSort_ahead (hnodup.sublist (List.filter_sublist.map key))

/-- A contestant stands on the board exactly if it has a score that fewer than
`n` others beat. -/
theorem mem_board : a ∈ board key score n l ↔ a ∈ l ∧ OnBoard key score n l a := by
  rw [board, mem_take_of_pairwise (pairwise_sorted hnodup), List.mem_insertionSort,
    List.mem_filter, OnBoard, ← ((List.perm_insertionSort _ _).filter _).length_eq.symm,
    List.filter_filter]
  simp only [decide_eq_true_eq, and_assoc, and_congr_right_iff]
  intro _ hpos
  rw [List.filter_congr (q := fun b => decide (Beats key score b a)) fun b _ => ?_]
  simp only [Bool.and_eq_left_iff_imp, decide_eq_true_eq]
  rintro (h | ⟨h, -⟩) <;> omega

/-- The board is in descending order. -/
theorem pairwise_board : (board key score n l).Pairwise (Beats key score) :=
  (pairwise_sorted hnodup).sublist (List.take_sublist _ _)

/-- Whoever has a score but no place on the board is beaten by `n` contestants on it. -/
theorem length_board_of_not_onBoard (ha : a ∈ l) (hpos : 0 < score a)
    (hnot : ¬OnBoard key score n l a) :
    (board key score n l).length = n ∧ ∀ b ∈ board key score n l, Beats key score b a := by
  have hsorted : ((l.filter fun a => 0 < score a).insertionSort (Ahead key score)).Pairwise
      (Beats key score) := pairwise_sorted hnodup
  have hmem : a ∈ (l.filter fun a => 0 < score a).insertionSort (Ahead key score) := by
    simpa using ⟨ha, hpos⟩
  have hdrop : a ∈ ((l.filter fun a => 0 < score a).insertionSort (Ahead key score)).drop n := by
    rw [← List.take_append_drop n (List.insertionSort _ _), List.mem_append] at hmem
    exact hmem.resolve_left fun htake => hnot ((mem_board hnodup).mp htake).2
  constructor
  · have hlength := List.length_pos_of_mem hdrop
    rw [List.length_drop] at hlength
    rw [board, List.length_take]
    omega
  · intro b hb
    rw [← List.take_append_drop n (List.insertionSort _ _)] at hsorted
    exact (List.pairwise_append.mp hsorted).2.2 b hb a hdrop

/-- Sorting records of the contestants that have a score, in whatever order they
come, gives the records of the board. -/
theorem take_insertionSort_records {β : Type*} (key' : β → κ) (score' : β → ℕ) {record : α → β}
    {records : List β} (hkey : ∀ a, key' (record a) = key a)
    (hscore : ∀ a, score' (record a) = score a)
    (hperm : records.Perm ((l.filter fun a => 0 < score a).map record)) :
    (records.insertionSort (Ahead key' score')).take n = (board key score n l).map record := by
  have hkeys : (((l.filter fun a => 0 < score a).map record).map key').Nodup := by
    simp only [List.map_map, Function.comp_def, hkey]
    exact hnodup.sublist (List.filter_sublist.map key)
  rw [insertionSort_perm ((hperm.map key').nodup_iff.mpr hkeys) hperm, board, List.map_take,
    List.map_insertionSort (Ahead key score) (Ahead key' score') record _ fun a _ b _ => ?_]
  simp only [Ahead, hkey, hscore]

variable {low : α → ℕ} (hlow : ∀ a ∈ l, low a ≤ score a)

include hlow

/-- If the lower scores are right on the true board, both boards have the same
contestants. -/
theorem onBoard_congr (h : ∀ a ∈ board key score n l, low a = score a) (ha : a ∈ l) :
    OnBoard key low n l a ↔ OnBoard key score n l a := by
  constructor
  · rintro ⟨hpos, hfew⟩
    by_contra hnot
    have hscore : 0 < score a := lt_of_lt_of_le hpos (hlow a ha)
    obtain ⟨hlength, hbeats⟩ := length_board_of_not_onBoard hnodup ha hscore hnot
    have hsub : board key score n l ⊆ l.filter fun b => Beats key low b a := by
      intro b hb
      have hscoreb := h b hb
      have hlowa := hlow a ha
      refine List.mem_filter.mpr ⟨((mem_board hnodup).mp hb).1, decide_eq_true ?_⟩
      rcases hbeats b hb with hba | ⟨hba, hkey⟩
      · exact .inl (by omega)
      · rcases lt_or_eq_of_le hlowa with hlt | heq
        · exact .inl (by omega)
        · exact .inr ⟨by omega, hkey⟩
    have := (List.subperm_of_subset (Beats.nodup (pairwise_board hnodup)) hsub).length_le
    omega
  · rintro ⟨hpos, hfew⟩
    have hscore := h a ((mem_board hnodup).mpr ⟨ha, hpos, hfew⟩)
    refine ⟨by omega, lt_of_le_of_lt ?_ hfew⟩
    rw [← List.countP_eq_length_filter, ← List.countP_eq_length_filter]
    refine List.countP_mono_left fun b hb hbeats => ?_
    have hlowb := hlow b hb
    rcases of_decide_eq_true hbeats with hba | ⟨hba, hkey⟩
    · exact decide_eq_true (.inl (by omega))
    · rcases lt_or_eq_of_le hlowb with hlt | heq
      · exact decide_eq_true (.inl (by omega))
      · exact decide_eq_true (.inr ⟨by omega, hkey⟩)

/-- If the lower scores are right on the true board, the boards are equal. -/
theorem board_congr (h : ∀ a ∈ board key score n l, low a = score a) :
    board key low n l = board key score n l := by
  have hmem : ∀ a, a ∈ board key low n l ↔ a ∈ board key score n l := by
    intro a
    rw [mem_board hnodup, mem_board hnodup]
    exact and_congr_right fun ha => onBoard_congr hnodup hlow h ha
  have hlowBoard : (board key low n l).Pairwise (Beats key score) := by
    refine (pairwise_board hnodup).imp_of_mem fun {a b} ha hb hbeats => ?_
    have hscorea := h a ((hmem a).mp ha)
    have hscoreb := h b ((hmem b).mp hb)
    rcases hbeats with hab | ⟨hab, hkey⟩
    · exact .inl (by omega)
    · exact .inr ⟨by omega, hkey⟩
  have hperm : (board key low n l).Perm (board key score n l) :=
    (List.perm_ext_iff_of_nodup (Beats.nodup hlowBoard)
      (Beats.nodup (pairwise_board hnodup))).mpr hmem
  exact hperm.eq_of_pairwise (fun a b _ _ hab hba => absurd hba hab.asymm) hlowBoard
    (pairwise_board hnodup)

/-- **Boards of low scores.** The board of the lower scores, scores included, is the
true board exactly if the lower scores are right for everybody who belongs on it. -/
theorem board_eq_iff :
    ((board key low n l).map fun a => (key a, low a)) =
        ((board key score n l).map fun a => (key a, score a)) ↔
      ∀ a ∈ l, OnBoard key score n l a → low a = score a := by
  constructor
  · intro h a ha hon
    have hmem : (key a, score a) ∈ (board key low n l).map fun a => (key a, low a) :=
      h ▸ List.mem_map_of_mem ((mem_board hnodup).mpr ⟨ha, hon⟩)
    obtain ⟨b, hb, hab⟩ := List.mem_map.mp hmem
    obtain ⟨hkey, hscore⟩ := Prod.mk.inj hab
    obtain rfl : b = a := List.inj_on_of_nodup_map hnodup ((mem_board hnodup).mp hb).1 ha hkey
    exact hscore
  · intro h
    have hright : ∀ a ∈ board key score n l, low a = score a := by
      intro a ha
      obtain ⟨hmem, hon⟩ := (mem_board hnodup).mp ha
      exact h a hmem hon
    rw [board_congr hnodup hlow hright]
    exact List.map_congr_left fun a ha => by rw [hright a ha]

end Board

end CoffeeOrder.Kit
