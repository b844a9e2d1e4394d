import CoffeeOrder.Kit.SerialHistory

/-!
# Generated identifiers are never handed out twice

The counter of generated identifiers only grows, so the rows that running
transactions have inserted and the rows committed since the start carry distinct
identifiers, all of them younger than the start.
-/

namespace CoffeeOrder.Kit

variable {S : Schema} {α I : Type}

/-- The identifiers a running transaction has drawn for its inserts. -/
def System.drawn (s : System S I α) (i : I) : List ℕ :=
  match s.status i with
  | .running _ buf => buf.inserted.map Prod.fst
  | _ => []

/-- `new` is what was committed since the counter stood at `first` and the log was
`old`; its identifiers and those of running transactions are distinct. -/
structure System.FreshIds (first : ℕ) (old new : List (ℕ × S.Record)) (s : System S I α) :
    Prop where
  log_eq : s.store.log = old ++ new
  range : ∀ id ∈ new.map Prod.fst, first ≤ id ∧ id < s.nextId
  nodup : (new.map Prod.fst).Nodup
  first_le : first ≤ s.nextId
  drawn_range : ∀ i, ∀ id ∈ s.drawn i, first ≤ id ∧ id < s.nextId
  drawn_nodup : ∀ i, (s.drawn i).Nodup
  drawn_not_mem : ∀ i, ∀ id ∈ s.drawn i, id ∉ new.map Prod.fst
  drawn_disjoint : ∀ i j, i ≠ j → ∀ id ∈ s.drawn i, id ∉ s.drawn j

variable {first : ℕ} {old new : List (ℕ × S.Record)} {s : System S I α}

/-- At the start nothing has been appended to the log. -/
theorem System.freshIds_start (st : Store S) (n : ℕ) (bodies : I → Body S α) :
    (System.start st n bodies).FreshIds n st.log [] where
  log_eq := (List.append_nil _).symm
  range _ h := by simp at h
  nodup := List.nodup_nil
  first_le := Nat.le_refl _
  drawn_range _ _ h := by simp [System.drawn, System.start] at h
  drawn_nodup _ := List.nodup_nil
  drawn_not_mem _ _ h := by simp [System.drawn, System.start] at h
  drawn_disjoint _ _ _ _ h := by simp [System.drawn, System.start] at h

variable [DecidableEq I]

/-- The identifiers drawn by `i` after it has moved on. -/
theorem System.drawn_proceed (i j : I) (body : Body S α) (buf : Buffers S) :
    (s.proceed i body buf).drawn j =
      if j = i then buf.inserted.map Prod.fst else s.drawn j := by
  by_cases hji : j = i
  · simp [System.drawn, hji]
  · simp [System.drawn, hji, System.proceed_status_of_ne]

/-- An ended transaction no longer holds identifiers. -/
theorem System.drawn_of_status {t : System S I α} {i : I} {final : Status S α}
    (hstatus : t.status = (s.finish i final).status) (hfinal : ∀ b w, final ≠ .running b w)
    (j : I) : t.drawn j = if j = i then [] else s.drawn j := by
  by_cases hji : j = i
  · subst hji
    rw [System.drawn, hstatus, System.finish_status_self, if_pos rfl]
    cases final with
    | running b w => exact absurd rfl (hfinal b w)
    | committed | failed | aborted => rfl
  · rw [System.drawn, hstatus, System.finish_status_of_ne s hji, if_neg hji]
    rfl

/-- A step that inserts nothing and ends nothing draws no identifier. -/
theorem System.FreshIds.proceed {i : I} {body body' : Body S α} {buf buf' : Buffers S}
    (h : s.FreshIds first old new) (hi : s.status i = .running body buf)
    (hinserted : buf'.inserted = buf.inserted) :
    (s.proceed i body' buf').FreshIds first old new := by
  have hdrawn : (s.proceed i body' buf').drawn = s.drawn := by
    funext j
    rw [System.drawn_proceed, hinserted]
    split
    · rename_i hji
      simp [System.drawn, hji, hi]
    · rfl
  exact ⟨h.log_eq, h.range, h.nodup, h.first_le, hdrawn ▸ h.drawn_range, hdrawn ▸ h.drawn_nodup,
    hdrawn ▸ h.drawn_not_mem, hdrawn ▸ h.drawn_disjoint⟩

/-- An insert draws the next identifier, which nobody has seen. -/
theorem System.FreshIds.insert {i : I} {r : S.Record} {next : ℕ → Body S α} {buf : Buffers S}
    (h : s.FreshIds first old new) (hi : s.status i = .running (.insert r next) buf) :
    ((s.proceed i (next s.nextId) (buf.insert s.nextId r)).drawId).FreshIds first old new := by
  have hold : s.drawn i = buf.inserted.map Prod.fst := by simp [System.drawn, hi]
  have hdrawn : ∀ j, ((s.proceed i (next s.nextId) (buf.insert s.nextId r)).drawId).drawn j =
      if j = i then s.drawn i ++ [s.nextId] else s.drawn j := by
    intro j
    refine (System.drawn_proceed i j _ _).trans ?_
    rw [hold]
    simp [Buffers.insert]
  have hfresh : ∀ j, s.nextId ∉ s.drawn j := fun j hmem =>
    absurd (h.drawn_range j _ hmem).2 (Nat.lt_irrefl _)
  have hmem : ∀ {j id}, id ∈ ((s.proceed i (next s.nextId)
      (buf.insert s.nextId r)).drawId).drawn j → id ∈ s.drawn j ∨ j = i ∧ id = s.nextId := by
    intro j id hid
    rw [hdrawn] at hid
    split at hid
    · rename_i hji
      rw [hji]
      simpa using hid
    · exact .inl hid
  refine ⟨h.log_eq, fun id hid => ?_, h.nodup, ?_, fun j id hid => ?_, fun j => ?_,
    fun j id hid => ?_, fun j k hjk id hid hid' => ?_⟩
  · have := h.range id hid
    exact ⟨this.1, Nat.lt_succ_of_lt this.2⟩
  · exact Nat.le_succ_of_le h.first_le
  · rcases hmem hid with hid | ⟨-, rfl⟩
    · have := h.drawn_range j id hid
      exact ⟨this.1, Nat.lt_succ_of_lt this.2⟩
    · exact ⟨h.first_le, Nat.lt_succ_self _⟩
  · rw [hdrawn]
    split
    · refine List.nodup_append.mpr ⟨h.drawn_nodup i, List.nodup_singleton _, ?_⟩
      rintro a ha b hb rfl
      exact hfresh i (List.mem_singleton.mp hb ▸ ha)
    · exact h.drawn_nodup j
  · rcases hmem hid with hid | ⟨-, rfl⟩
    · exact h.drawn_not_mem j id hid
    · exact fun hnew => absurd (h.range _ hnew).2 (Nat.lt_irrefl _)
  · rcases hmem hid with hid | ⟨hji, rfl⟩
    · rcases hmem hid' with hid' | ⟨-, rfl⟩
      · exact h.drawn_disjoint j k hjk id hid hid'
      · exact hfresh j hid
    · rcases hmem hid' with hid' | ⟨hki, -⟩
      · exact hfresh k hid'
      · exact hjk (hji.trans hki.symm)

/-- The end of a transaction moves the identifiers it has drawn to the log, or
forgets them. -/
theorem System.FreshIds.ended {i : I} {body : Body S α} {buf : Buffers S} {t : System S I α}
    {final : Status S α} (ins : List (ℕ × S.Record)) (h : s.FreshIds first old new)
    (hi : s.status i = .running body buf) (hfinal : ∀ b w, final ≠ .running b w)
    (hstatus : t.status = (s.finish i final).status) (hnext : t.nextId = s.nextId)
    (hlog : t.store.log = s.store.log ++ ins) (hins : ins = buf.inserted ∨ ins = []) :
    t.FreshIds first old (new ++ ins) := by
  have hold : s.drawn i = buf.inserted.map Prod.fst := by simp [System.drawn, hi]
  have hdrawn := System.drawn_of_status hstatus hfinal
  have hsub : ∀ id ∈ ins.map Prod.fst, id ∈ s.drawn i := by
    rcases hins with rfl | rfl
    · exact fun id hid => hold ▸ hid
    · simp
  have hmem : ∀ {j id}, id ∈ t.drawn j → j ≠ i ∧ id ∈ s.drawn j := by
    intro j id hid
    rw [hdrawn] at hid
    split at hid
    · simp at hid
    · rename_i hji
      exact ⟨hji, hid⟩
  refine ⟨by rw [hlog, h.log_eq, List.append_assoc], fun id hid => ?_, ?_, hnext ▸ h.first_le,
    fun j id hid => hnext ▸ h.drawn_range j id (hmem hid).2, fun j => ?_, fun j id hid => ?_,
    fun j k hjk id hid hid' => ?_⟩
  · rw [List.map_append, List.mem_append] at hid
    rw [hnext]
    rcases hid with hid | hid
    · exact h.range id hid
    · exact h.drawn_range i id (hsub id hid)
  · rw [List.map_append]
    refine List.nodup_append.mpr ⟨h.nodup, ?_, ?_⟩
    · rcases hins with rfl | rfl
      · exact hold ▸ h.drawn_nodup i
      · exact List.nodup_nil
    · rintro a ha b hb rfl
      exact h.drawn_not_mem i a (hsub a hb) ha
  · rw [hdrawn]
    split
    · exact List.nodup_nil
    · exact h.drawn_nodup j
  · obtain ⟨hji, hid⟩ := hmem hid
    rw [List.map_append, List.mem_append]
    rintro (hnew | hins')
    · exact h.drawn_not_mem j id hid hnew
    · exact h.drawn_disjoint j i hji id hid (hsub id hins')
  · exact h.drawn_disjoint j k hjk id (hmem hid).2 (hmem hid').2

variable [DecidableEq S.Key]

/-- Every step keeps identifiers distinct. -/
theorem System.FreshIds.step {tables : (q : S.Query) → S.Answer q} {t : System S I α}
    {l : Label S I} (h : s.FreshIds first old new) (hstep : s.step tables l = some t) :
    ∃ new', t.FreshIds first old new' := by
  cases System.step_moves hstep with
  | abort hi =>
    exact ⟨_, h.ended [] hi (by simp) rfl rfl (by simp [System.finish]) (.inr rfl)⟩
  | throw hi =>
    exact ⟨_, h.ended [] hi (by simp) rfl rfl (by simp [System.finish]) (.inr rfl)⟩
  | commit hi => exact ⟨_, h.ended _ hi (by simp) rfl rfl rfl (.inl rfl)⟩
  | insert hi => exact ⟨new, h.insert hi⟩
  | query hi | input hi | update hi _ | publish hi => exact ⟨new, h.proceed hi rfl⟩
  | relock hi _ => exact ⟨new, h.proceed hi (Buffers.noteLock_inserted ..)⟩
  | lockMissing hi _ _ => exact ⟨new, h.proceed hi rfl⟩
  | @lock i _ key next buf row hi _ _ =>
    have hnext : (s.proceed i (next (some row)) (buf.noteLock key (some row))).FreshIds first old
        new := h.proceed hi (Buffers.noteLock_inserted buf key (some row))
    exact ⟨new, hnext.log_eq, hnext.range, hnext.nodup, hnext.first_le, hnext.drawn_range,
      hnext.drawn_nodup, hnext.drawn_not_mem, hnext.drawn_disjoint⟩

/-- Rows committed since the start carry distinct identifiers that the counter
has handed out since then. -/
theorem System.exists_freshIds {tables : (q : S.Query) → S.Answer q} {st : Store S} {n : ℕ}
    {bodies : I → Body S α} (h : Reachable (System.step tables) (System.start st n bodies) s) :
    ∃ new, s.FreshIds n st.log new :=
  h.invariant (I := fun s => ∃ new, s.FreshIds n st.log new)
    ⟨[], System.freshIds_start st n bodies⟩ fun _ _ _ ⟨_, hfresh⟩ hstep => hfresh.step hstep

end CoffeeOrder.Kit
