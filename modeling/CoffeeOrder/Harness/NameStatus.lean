import CoffeeOrder.Harness.Git

/-!
# Name-status streams

What `git diff --name-status -z` prints is a list of records. `parse_name_status` reads
back exactly the streams of records, and tells different paths apart.
-/

namespace CoffeeOrder.Harness

open Kit Python

/-- A status: a letter, or `R` or `C` with a score of up to three digits. -/
def IsStatus : Bytes → Prop
  | [] => False
  | letter :: digits =>
    (letter ∈ Bytes.ofString "ACDMTUXB" ∧ digits = []) ∨
      (letter ∈ Bytes.ofString "RC" ∧ digits.length ≤ 3 ∧ ∀ d ∈ digits, 0x30 ≤ d ∧ d ≤ 0x39)

/-- A rename or a copy. -/
def NamesTwo (status : Bytes) : Prop := ∃ letter ∈ Bytes.ofString "RC", status.head? = some letter

instance (status : Bytes) : Decidable (NamesTwo status) :=
  inferInstanceAs (Decidable (∃ letter ∈ Bytes.ofString "RC", _))

/-- A record: its status, and its two paths or its only one. -/
structure NameStatusRecord where
  status : Bytes
  paths : List Bytes
  status_valid : IsStatus status
  paths_valid : ∀ path ∈ paths, IsToken path
  paths_count : paths.length = if NamesTwo status then 2 else 1

namespace NameStatusRecord

/-- The items of a record, as they follow each other. -/
def tokens (r : NameStatusRecord) : List Bytes := r.status :: r.paths

/-- The bytes of a list of records: each item is terminated by a NUL. -/
def stream (records : List NameStatusRecord) : Bytes := terminated 0 (records.flatMap tokens)

/-- The paths of a list of records, as the parser returns them. -/
def texts (records : List NameStatusRecord) : List Str :=
  records.flatMap fun r => r.paths.map Bytes.decodeSurrogateescape

end NameStatusRecord

section Status

/-- The text of ASCII bytes. -/
def asciiText (raw : Bytes) : Str := raw.map fun b => Bytes.codePoint b.toNat

/-- What holds of the 256 values of a byte holds of every byte. -/
theorem forall_byte {p : UInt8 → Prop} (h : ∀ n < 256, p (UInt8.ofNat n)) : ∀ b, p b := fun b =>
  UInt8.ofNat_toNat (x := b) ▸ h b.toNat b.toNat_lt

/-- The letters of a status are ASCII. -/
theorem mem_letters : ∀ letter : UInt8,
    Bytes.codePoint letter.toNat ∈ ("ACDMTUXB" : Str) ↔ letter ∈ Bytes.ofString "ACDMTUXB" :=
  forall_byte (by decide +kernel)

/-- The letters of a rename and a copy are ASCII. -/
theorem mem_movedLetters : ∀ letter : UInt8,
    Bytes.codePoint letter.toNat ∈ ("RC" : Str) ↔ letter ∈ Bytes.ofString "RC" :=
  forall_byte (by decide +kernel)

/-- The digits of a score are ASCII. -/
theorem isDigit_codePoint : ∀ d : UInt8,
    (Bytes.codePoint d.toNat).isDigit = true ↔ 0x30 ≤ d ∧ d ≤ 0x39 :=
  forall_byte (by decide +kernel)

/-- A rename or a copy is told by its first letter. -/
theorem codePoint_moved : ∀ letter : UInt8, (0x52 == Bytes.codePoint letter.toNat ||
    0x43 == Bytes.codePoint letter.toNat) = true ↔ letter ∈ Bytes.ofString "RC" :=
  forall_byte (by decide +kernel)

/-- The expression accepts just the statuses. -/
theorem isNameStatus_iff (status : Bytes) :
    isNameStatus (asciiText status) = true ↔ IsStatus status := by
  cases status with
  | nil => exact iff_of_false nofun id
  | cons letter digits =>
    simp only [asciiText, List.map_cons, isNameStatus, IsStatus, Bool.or_eq_true, Bool.and_eq_true,
      decide_eq_true_eq, mem_letters, mem_movedLetters, List.map_eq_nil_iff, List.length_map,
      List.all_eq_true, List.forall_mem_map, isDigit_codePoint, and_assoc]

/-- A status is ASCII. -/
theorem IsStatus.ascii {status : Bytes} (h : IsStatus status) : ∀ b ∈ status, b < 0x80 := by
  have hletters : ∀ b ∈ Bytes.ofString "ACDMTUXB", b < 0x80 :=
    List.forall_iff_forall_mem.mp (by decide)
  have hmoved : ∀ b ∈ Bytes.ofString "RC", b < 0x80 := List.forall_iff_forall_mem.mp (by decide)
  cases status with
  | nil => exact fun _ hb => nomatch hb
  | cons letter digits =>
    refine List.forall_mem_cons.mpr ?_
    obtain ⟨hletter, rfl⟩ | ⟨hletter, -, hdigits⟩ := h
    · exact ⟨hletters letter hletter, fun _ hb => nomatch hb⟩
    · have hlt : (0x39 : UInt8) < 0x80 := by decide
      exact ⟨hmoved letter hletter, fun d hd => UInt8.lt_of_le_of_lt (hdigits d hd).2 hlt⟩

/-- Exactly the statuses are read. -/
theorem parseStatus_eq_ok_iff {status : Bytes} {text : Str} :
    parseStatus status = .ok text ↔ IsStatus status ∧ text = asciiText status := by
  unfold parseStatus decodeAscii
  by_cases hascii : (status.all (· < 0x80)) = true
  · simp only [hascii, if_true]
    refine Checked.raiseIf_bind_eq_ok.trans ?_
    rw [Bool.not_eq_true', Bool.not_eq_false, ← asciiText, isNameStatus_iff, Checked.pure_eq_ok,
      eq_comm]
  · simp only [hascii]
    refine iff_of_false (fun h => ?_) fun h => hascii ?_
    · cases h
    · simpa using h.1.ascii

/-- The parser looks for two paths behind a rename or a copy. -/
theorem startsWith_iff (status : Bytes) :
    ((asciiText status).startsWith "R" || (asciiText status).startsWith "C") = true ↔
      NamesTwo status := by
  cases status with
  | nil => exact iff_of_false (by decide) (by decide)
  | cons letter digits =>
    have hstarts : ((asciiText (letter :: digits)).startsWith "R" ||
        (asciiText (letter :: digits)).startsWith "C") = (0x52 == Bytes.codePoint letter.toNat ||
          0x43 == Bytes.codePoint letter.toNat) := by
      rw [← Bool.and_true (0x52 == _), ← Bool.and_true (0x43 == _)]
      rfl
    rw [hstarts, codePoint_moved, NamesTwo]
    simp only [List.head?_cons, Option.some.injEq, exists_eq_right']

end Status

namespace NameStatusRecord

/-- A rename or copy has two paths, every other record one. -/
theorem paths_eq (r : NameStatusRecord) :
    (NamesTwo r.status ∧ ∃ source target, r.paths = [source, target]) ∨
      (¬NamesTwo r.status ∧ ∃ path, r.paths = [path]) := by
  have hcount := r.paths_count
  by_cases hmoved : NamesTwo r.status
  · rw [if_pos hmoved] at hcount
    exact .inl ⟨hmoved, List.length_eq_two.mp hcount⟩
  · rw [if_neg hmoved] at hcount
    exact .inr ⟨hmoved, List.length_eq_one_iff.mp hcount⟩

/-- No item of a record is empty or holds a NUL. -/
theorem tokens_valid (r : NameStatusRecord) : ∀ token ∈ r.tokens, IsToken token := by
  refine List.forall_mem_cons.mpr ⟨⟨?_, fun hzero => ?_⟩, r.paths_valid⟩
  · intro hnil
    have hstatus := r.status_valid
    rw [hnil] at hstatus
    exact hstatus
  · have hstatus := r.status_valid
    cases hbytes : r.status with
    | nil => exact absurd (hbytes ▸ hzero) List.not_mem_nil
    | cons letter digits =>
      rw [hbytes] at hzero hstatus
      have hletters : (0 : UInt8) ∉ Bytes.ofString "ACDMTUXB" := by decide
      have hmoved : (0 : UInt8) ∉ Bytes.ofString "RC" := by decide
      obtain hletter | hdigit := List.mem_cons.mp hzero
      · obtain ⟨h, -⟩ | ⟨h, -⟩ := hstatus
        · exact hletters (hletter ▸ h)
        · exact hmoved (hletter ▸ h)
      · obtain ⟨-, hnil⟩ | ⟨-, -, hdigits⟩ := hstatus
        · exact absurd (hnil ▸ hdigit) List.not_mem_nil
        · exact absurd (hdigits 0 hdigit).1 (by decide)

/-- The items determine the records: the status says how many paths follow. -/
theorem flatMap_tokens_injective :
    Function.Injective fun records : List NameStatusRecord => records.flatMap tokens := by
  intro records records' h
  induction records generalizing records' with
  | nil =>
    cases records' with
    | nil => rfl
    | cons r' records' => exact nomatch h
  | cons r records ih =>
    cases records' with
    | nil => exact nomatch h
    | cons r' records' =>
      simp only [List.flatMap_cons, tokens, List.cons_append, List.cons.injEq] at h
      obtain ⟨hstatus, hrest⟩ := h
      have hlength : r.paths.length = r'.paths.length := by
        rw [r.paths_count, r'.paths_count, hstatus]
      obtain ⟨hpaths, hrecords⟩ := List.append_inj hrest hlength
      obtain ⟨status, paths, _, _, _⟩ := r
      obtain ⟨status', paths', _, _, _⟩ := r'
      obtain rfl : status = status' := hstatus
      obtain rfl : paths = paths' := hpaths
      rw [ih hrecords]

/-- The texts of the first record come first. -/
theorem texts_cons (r : NameStatusRecord) (records : List NameStatusRecord) :
    texts (r :: records) = r.paths.map Bytes.decodeSurrogateescape ++ texts records :=
  List.flatMap_cons

/-- The items of a list of records are read as its paths. -/
theorem nameStatusPaths_flatMap (records : List NameStatusRecord) :
    nameStatusPaths (records.flatMap tokens) = .ok (texts records) := by
  induction records with
  | nil => rfl
  | cons r records ih =>
    have hstatus := parseStatus_eq_ok_iff.mpr ⟨r.status_valid, rfl⟩
    have hmoved := startsWith_iff r.status
    have hdecode := fun path hpath => decodeGitPath_eq_ok (r.paths_valid path hpath)
    rw [List.flatMap_cons, tokens, List.cons_append, nameStatusPaths]
    refine Checked.bind_eq_ok.mpr ⟨_, hstatus, ?_⟩
    obtain ⟨htwo, source, target, hpaths⟩ | ⟨hone, path, hpaths⟩ := r.paths_eq
    · rw [hpaths] at hdecode
      rw [if_pos (hmoved.mpr htwo), hpaths]
      refine Checked.bind_eq_ok.mpr ⟨_, hdecode source (by simp), ?_⟩
      refine Checked.bind_eq_ok.mpr ⟨_, hdecode target (by simp), ?_⟩
      refine Checked.bind_eq_ok.mpr ⟨_, ih, ?_⟩
      rw [texts_cons, hpaths]
      rfl
    · rw [hpaths] at hdecode
      rw [if_neg (mt hmoved.mp hone), hpaths]
      refine Checked.bind_eq_ok.mpr ⟨_, hdecode path (by simp), ?_⟩
      refine Checked.bind_eq_ok.mpr ⟨_, ih, ?_⟩
      rw [texts_cons, hpaths]
      rfl

/-- Items that are read are those of some records. -/
theorem exists_of_nameStatusPaths {items : List Bytes} {found : List Str}
    (hnul : ∀ item ∈ items, 0 ∉ item) (h : nameStatusPaths items = .ok found) :
    ∃ records : List NameStatusRecord, items = records.flatMap tokens := by
  have token {raw : Bytes} {text : Str} (hraw : 0 ∉ raw) (h : decodeGitPath raw = .ok text) :
      IsToken raw := ⟨(Checked.raiseIf_bind_eq_ok.mp h).1, hraw⟩
  induction items using nameStatusPaths.induct generalizing found with
  | case1 => exact ⟨[], rfl⟩
  | case2 status items hmoved hplain =>
    rw [nameStatusPaths] at h
    obtain ⟨text, hstatus, h⟩ := Checked.bind_eq_ok.mp h
    obtain ⟨hvalid, rfl⟩ := parseStatus_eq_ok_iff.mp hstatus
    obtain ⟨-, hnul⟩ := List.forall_mem_cons.mp hnul
    by_cases htwo : NamesTwo status
    · rw [if_pos ((startsWith_iff status).mpr htwo)] at h
      rcases items with _ | ⟨source, _ | ⟨target, rest⟩⟩
      · cases h
      · cases h
      · obtain ⟨hsource, hnul⟩ := List.forall_mem_cons.mp hnul
        obtain ⟨htarget, hnul⟩ := List.forall_mem_cons.mp hnul
        obtain ⟨first, hfirst, h⟩ := Checked.bind_eq_ok.mp h
        obtain ⟨second, hsecond, h⟩ := Checked.bind_eq_ok.mp h
        obtain ⟨others, hothers, -⟩ := Checked.bind_eq_ok.mp h
        obtain ⟨records, rfl⟩ := hmoved hnul hothers
        have hpaths : ∀ path ∈ [source, target], IsToken path :=
          List.forall_mem_cons.mpr ⟨token hsource hfirst,
            List.forall_mem_singleton.mpr (token htarget hsecond)⟩
        exact ⟨⟨status, [source, target], hvalid, hpaths, (if_pos htwo).symm⟩ :: records, rfl⟩
    · rw [if_neg (mt (startsWith_iff status).mp htwo)] at h
      rcases items with _ | ⟨path, rest⟩
      · cases h
      · obtain ⟨hpath, hnul⟩ := List.forall_mem_cons.mp hnul
        obtain ⟨first, hfirst, h⟩ := Checked.bind_eq_ok.mp h
        obtain ⟨others, hothers, -⟩ := Checked.bind_eq_ok.mp h
        obtain ⟨records, rfl⟩ := hplain hnul hothers
        have hpaths : ∀ p ∈ [path], IsToken p :=
          List.forall_mem_singleton.mpr (token hpath hfirst)
        exact ⟨⟨status, [path], hvalid, hpaths, (if_neg htwo).symm⟩ :: records, rfl⟩

/-- Every record has a token. -/
theorem flatMap_tokens_ne_nil {records : List NameStatusRecord} (h : records ≠ []) :
    records.flatMap tokens ≠ [] := by
  obtain ⟨r, rest, rfl⟩ := List.exists_cons_of_ne_nil h
  exact List.cons_ne_nil _ _

/-- No token holds a NUL. -/
theorem flatMap_tokens_valid (records : List NameStatusRecord) :
    ∀ token ∈ records.flatMap tokens, 0 ∉ token := by
  intro token htoken
  obtain ⟨r, -, htoken⟩ := List.mem_flatMap.mp htoken
  exact (r.tokens_valid token htoken).2

/-- A stream of records is read as their paths. -/
theorem parseNameStatus_stream (records : List NameStatusRecord) :
    parseNameStatus (stream records) = .ok (texts records) := by
  rcases eq_or_ne records [] with rfl | hne
  · rfl
  obtain ⟨hlast, hsplit⟩ :=
    splitOn_terminated (flatMap_tokens_ne_nil hne) (flatMap_tokens_valid records)
  rw [stream, parseNameStatus, if_neg (terminated_ne_nil (flatMap_tokens_ne_nil hne))]
  refine Checked.raiseIf_bind_eq_ok.mpr ⟨not_not.mpr hlast, ?_⟩
  rw [Bytes.split, hsplit, nameStatusPaths_flatMap]

/-- Bytes that are read are a stream of records. -/
theorem exists_of_parseNameStatus {raw : Bytes} {found : List Str}
    (h : parseNameStatus raw = .ok found) : ∃ records, stream records = raw := by
  unfold parseNameStatus at h
  split at h
  · next hnil => exact ⟨[], hnil.symm⟩
  · next hne =>
    obtain ⟨hlast, h⟩ := Checked.raiseIf_bind_eq_ok.mp h
    have hne' : raw.dropLast.splitOn 0 ≠ [] := List.splitOn_ne_nil 0 _
    have hnul : ∀ item ∈ raw.dropLast.splitOn 0, 0 ∉ item := not_mem_segment _
    obtain ⟨records, hrecords⟩ := exists_of_nameStatusPaths hnul h
    refine ⟨records, ?_⟩
    rw [stream, ← hrecords, terminated_eq_intercalate hne', List.intercalate_splitOn]
    exact List.dropLast_append_getLast? 0 (not_not.mp hlast)

/-- Different lists of records have different streams. -/
theorem stream_injective : Function.Injective stream := by
  intro records records' h
  apply flatMap_tokens_injective
  exact terminated_inj (flatMap_tokens_valid records) (flatMap_tokens_valid records') h

end NameStatusRecord

/-- Name-status streams are decoded exactly: a stream of records is read as their paths, all
that is read is the stream of one list of records, everything else is a `git.diff` violation,
and no two paths are confused. -/
theorem nameStatus_decoded_exactly :
    (∀ records, parseNameStatus (NameStatusRecord.stream records) =
        .ok (NameStatusRecord.texts records)) ∧
      (∀ raw found, parseNameStatus raw = .ok found →
        ∃! records, NameStatusRecord.stream records = raw) ∧
      (∀ raw, (∀ records, NameStatusRecord.stream records ≠ raw) →
        ∃ reason, parseNameStatus raw = .error (.HarnessViolation .FAIL "git.diff" reason)) ∧
      Function.Injective Bytes.decodeSurrogateescape := by
  refine ⟨NameStatusRecord.parseNameStatus_stream, fun raw found hfound => ?_, fun raw hraw => ?_,
    Bytes.decodeSurrogateescape_injective⟩
  · obtain ⟨records, hrecords⟩ := NameStatusRecord.exists_of_parseNameStatus hfound
    exact ⟨records, hrecords, fun records' h =>
      NameStatusRecord.stream_injective (h.trans hrecords.symm)⟩
  · cases hparsed : parseNameStatus raw with
    | ok found =>
      obtain ⟨records, hrecords⟩ := NameStatusRecord.exists_of_parseNameStatus hparsed
      exact absurd hrecords (hraw records)
    | error e =>
      obtain ⟨reason, rfl⟩ := parseNameStatus_raises raw e hparsed
      exact ⟨reason, rfl⟩

/-- A path that looks like a status is a path. -/
example : parseNameStatus (Bytes.ofString "R100\x00M\x00a\x00A\x00b\x00") =
    .ok ["M", "a", "b"] := by
  decide +kernel

end CoffeeOrder.Harness
