import CoffeeOrder.Harness.Patterns

/-!
# The language of patterns

Which strings the validators of patterns, plan patterns and `contractChanges` accept, and
what an accepted pattern matches, in terms of path segments.
-/

namespace CoffeeOrder.Harness

open Kit Python

/-- No white space at either end. -/
structure Trimmed (s : Str) : Prop where
  first : ∀ c ∈ s.head?, c.isSpace = false
  last : ∀ c ∈ s.getLast?, c.isSpace = false

/-- A segment of a repository path: no empty, `.` or `..` segment, and none with a slash, a
backslash, a control character or a character of other pattern languages. -/
structure IsSegment (segment : Str) : Prop where
  named : segment ∉ (["", ".", ".."] : List Str)
  slash : CodePoint.slash ∉ segment
  chars : ∀ c ∈ segment, c ≠ 0x5c ∧ c.isControl = false ∧ isPatternChar c = false

/-- Segments joined by slashes, and `/**` behind those of a directory. -/
def patternText (segments : List Str) (directory : Bool) : Str :=
  Str.join "/" segments ++ if directory then ("/**" : Str) else []

/-- A pattern, read as its segments: an exact path, or a directory and all below it. -/
structure RepositoryPattern where
  segments : List Str
  directory : Bool
  nonempty : segments ≠ []
  valid : ∀ segment ∈ segments, IsSegment segment
  trimmed : Trimmed (patternText segments directory)

/-- The pattern as it is written. -/
def RepositoryPattern.text (p : RepositoryPattern) : Str := patternText p.segments p.directory

section Strings

/-- Nothing is stripped in front if the text does not begin with white space. -/
theorem dropWhile_isSpace_iff {s : Str} :
    s.dropWhile CodePoint.isSpace = s ↔ ∀ c ∈ s.head?, c.isSpace = false := by
  cases s with
  | nil => simp
  | cons c s =>
    rw [List.dropWhile_eq_self_iff]
    simp

/-- What `strip` keeps is trimmed. -/
theorem strip_eq_self_iff {s : Str} : s = s.strip ↔ Trimmed s := by
  have hrstrip (t : Str) : t.rstrip = t ↔ ∀ c ∈ t.getLast?, c.isSpace = false := by
    rw [Str.rstrip, List.reverse_eq_iff, dropWhile_isSpace_iff, List.head?_reverse]
  constructor
  · intro h
    have hlength : s.length ≤ (s.dropWhile CodePoint.isSpace).length := by
      have hle : s.strip.length ≤ (s.dropWhile CodePoint.isSpace).length := by
        rw [Str.strip, Str.rstrip, List.length_reverse]
        exact (List.dropWhile_suffix _).length_le.trans (List.length_reverse).le
      rwa [← h] at hle
    have hfirst : s.dropWhile CodePoint.isSpace = s :=
      (List.dropWhile_suffix _).eq_of_length_le hlength
    refine ⟨dropWhile_isSpace_iff.mp hfirst, (hrstrip s).mp ?_⟩
    rw [Str.strip, hfirst] at h
    exact h.symm
  · rintro ⟨hfirst, hlast⟩
    rw [Str.strip, dropWhile_isSpace_iff.mpr hfirst]
    exact ((hrstrip s).mpr hlast).symm

/-- A text contains a character if it has it. -/
theorem contains_singleton {s : Str} {c : CodePoint} : Str.contains s [c] = true ↔ c ∈ s := by
  rw [Str.contains, decide_eq_true_eq]
  exact List.singleton_infix_iff c s

/-- Two slashes in a row have an empty segment between them. -/
theorem nil_mem_split_of_slashes {s : Str} (h : ("//" : Str) <:+: s) : [] ∈ s.split .slash := by
  obtain ⟨first, last, rfl⟩ := h
  have hsplit : first ++ "//" ++ last =
      first ++ CodePoint.slash :: ([] ++ CodePoint.slash :: last) :=
    List.append_assoc _ _ _
  rw [hsplit, Str.split, List.splitOn_append_cons_self, List.splitOn_append_cons_self]
  simp

/-- A slash in front has an empty segment before it. -/
theorem nil_mem_split_of_startsWith {s : Str} (h : s.startsWith "/" = true) :
    [] ∈ s.split .slash := by
  obtain ⟨rest, rfl⟩ := List.isPrefixOf_iff_prefix.mp h
  have hsplit : ("/" : Str) ++ rest = [] ++ CodePoint.slash :: rest := rfl
  rw [hsplit, Str.split, List.splitOn_append_cons_self]
  simp

/-- A slash at the end has an empty segment behind it. -/
theorem nil_mem_split_of_endsWith {s : Str} (h : s.endsWith "/" = true) : [] ∈ s.split .slash := by
  obtain ⟨rest, rfl⟩ := List.isSuffixOf_iff_suffix.mp h
  have hsplit : rest ++ ("/" : Str) = rest ++ CodePoint.slash :: [] := rfl
  rw [hsplit, Str.split, List.splitOn_append_cons_self]
  simp

end Strings

section Language

variable (p : RepositoryPattern)

/-- No segment has a slash. -/
theorem RepositoryPattern.slash_notMem : ∀ segment ∈ p.segments, CodePoint.slash ∉ segment :=
  fun segment h => (p.valid segment h).slash

/-- The segments are read back from the joined text. -/
theorem RepositoryPattern.split_join : Str.split (Str.join "/" p.segments) .slash = p.segments :=
  List.splitOn_intercalate _ p.slash_notMem p.nonempty

/-- What holds of a slash and of the characters of all segments holds of the joined text. -/
theorem forall_mem_join {P : CodePoint → Prop} {segments : List Str} (hslash : P .slash)
    (h : ∀ segment ∈ segments, ∀ c ∈ segment, P c) : ∀ c ∈ Str.join "/" segments, P c := by
  intro c hc
  obtain hsep | ⟨segment, hsegment, hc⟩ := mem_intercalate hc
  · obtain rfl := List.mem_singleton.mp hsep
    exact hslash
  · exact h segment hsegment c hc

/-- The segments have no backslash, control character or wildcard. -/
theorem RepositoryPattern.join_plain :
    ∀ c ∈ Str.join "/" p.segments, c ≠ 0x5c ∧ c.isControl = false ∧ isPatternChar c = false :=
  forall_mem_join (by decide) fun segment h => (p.valid segment h).chars

/-- The body of a pattern is its segments. -/
theorem RepositoryPattern.patternBody_text : patternBody p.text = Str.join "/" p.segments := by
  unfold patternBody text patternText
  cases hdir : p.directory with
  | true =>
    have hends : Str.endsWith (Str.join "/" p.segments ++ ("/**" : Str)) "/**" = true :=
      List.isSuffixOf_iff_suffix.mpr (List.suffix_append _ _)
    simp only [if_true, hends]
    exact List.rdrop_append_length
  | false =>
    have hends : ¬Str.endsWith (Str.join "/" p.segments) "/**" = true := by
      intro h
      have hstar : (0x2a : CodePoint) ∈ Str.join "/" p.segments :=
        (List.isSuffixOf_iff_suffix.mp h).subset (by decide)
      exact nomatch (p.join_plain _ hstar).2.2
    simp only [Bool.false_eq_true, if_false, List.append_nil, hends]

/-- The pattern has no backslash or control character. -/
theorem RepositoryPattern.text_plain :
    ∀ c ∈ p.text, c ≠ 0x5c ∧ c.isControl = false := by
  intro c hc
  obtain hc | hc := List.mem_append.mp hc
  · exact ⟨(p.join_plain c hc).1, (p.join_plain c hc).2.1⟩
  · split at hc
    · have hsuffix : ("/**" : Str).all (fun c => c ≠ 0x5c && !c.isControl) = true := by decide
      have hplain := List.all_eq_true.mp hsuffix c hc
      simpa using hplain
    · exact nomatch hc

/-- No segment of the text is empty, also not the last one of a directory. -/
theorem RepositoryPattern.nil_notMem_split : [] ∉ p.text.split .slash := by
  have hsegments : [] ∉ p.segments := fun h => (p.valid [] h).named (by decide)
  unfold text patternText
  cases hdir : p.directory with
  | true =>
    have hsplit : Str.join "/" p.segments ++ ("/**" : Str) =
        Str.join "/" p.segments ++ CodePoint.slash :: ("**" : Str) := rfl
    have hlast : List.splitOn CodePoint.slash ("**" : Str) = [("**" : Str)] := by decide
    simp only [if_true]
    rw [hsplit, Str.split, List.splitOn_append_cons_self, hlast]
    intro h
    obtain h | h := List.mem_append.mp h
    · exact hsegments (p.split_join ▸ h)
    · exact nomatch List.mem_singleton.mp h
  | false =>
    simp only [Bool.false_eq_true, if_false, List.append_nil, p.split_join]
    exact hsegments

/-- Every pattern passes as it is written. -/
theorem RepositoryPattern.validate_text (check_id : Str) :
    validateRepositoryPattern p.text check_id = .ok () := by
  have hsplit : (patternBody p.text).split .slash = p.segments := by
    rw [p.patternBody_text, p.split_join]
  have hbody : [] ∉ (patternBody p.text).split .slash := by
    rw [hsplit]
    exact fun h => (p.valid [] h).named (by decide)
  refine Checked.raiseIf_bind_eq_ok.mpr ⟨?_, Checked.raiseIf_eq_ok.mpr ?_⟩
  · rintro (htrimmed | hstarts | hbackslash | hslashes | hcontrol | hnil | hends |
      ⟨segment, hmem, hbad⟩)
    · exact htrimmed (strip_eq_self_iff.mpr p.trimmed)
    · exact p.nil_notMem_split (nil_mem_split_of_startsWith hstarts)
    · exact (p.text_plain _ (contains_singleton.mp hbackslash)).1 rfl
    · exact p.nil_notMem_split (nil_mem_split_of_slashes (of_decide_eq_true hslashes))
    · obtain ⟨c, hc, hcontrol⟩ := List.any_eq_true.mp hcontrol
      exact absurd hcontrol (by simp [(p.text_plain c hc).2])
    · exact hbody (by rw [hnil]; decide)
    · exact hbody (nil_mem_split_of_endsWith hends)
    · rw [hsplit] at hmem
      exact (p.valid segment hmem).named hbad
  · rw [p.patternBody_text]
    intro hany
    obtain ⟨c, hc, hpattern⟩ := List.any_eq_true.mp hany
    exact absurd hpattern (by simp [(p.join_plain c hc).2.2])

/-- Whatever passes is a pattern. -/
theorem exists_pattern_of_valid {pattern check_id : Str}
    (h : validateRepositoryPattern pattern check_id = .ok ()) :
    ∃ p : RepositoryPattern, p.text = pattern := by
  obtain ⟨hbad, hbody⟩ := Checked.raiseIf_bind_eq_ok.mp h
  replace hbody := Checked.raiseIf_eq_ok.mp hbody
  simp only [not_or] at hbad
  obtain ⟨htrimmed, -, hbackslash, -, hcontrol, -, -, hnamed⟩ := hbad
  have hwritten : patternText ((patternBody pattern).split .slash) (pattern.endsWith "/**") =
      pattern := by
    have hjoin : Str.join "/" ((patternBody pattern).split .slash) = patternBody pattern :=
      List.intercalate_splitOn CodePoint.slash
    rw [patternText, hjoin, patternBody]
    split
    · rename_i hends
      obtain ⟨rest, rfl⟩ := List.isSuffixOf_iff_suffix.mp hends
      rw [Str.dropEnd, show 3 = ("/**" : Str).length from rfl, List.rdrop_append_length]
    · exact List.append_nil _
  have hsubset : ∀ c ∈ patternBody pattern, c ∈ pattern := by
    intro c hc
    rw [patternBody] at hc
    split at hc
    · exact (List.take_subset _ _) hc
    · exact hc
  refine ⟨⟨(patternBody pattern).split .slash, pattern.endsWith "/**", List.splitOn_ne_nil _ _,
    fun segment hsegment => ⟨fun h => hnamed ⟨segment, hsegment, h⟩, not_mem_segment _ _ hsegment,
      fun c hc => ?_⟩, ?_⟩, hwritten⟩
  · have hmem : c ∈ patternBody pattern := mem_of_mem_segment hsegment hc
    refine ⟨?_, ?_, ?_⟩
    · rintro rfl
      exact hbackslash (contains_singleton.mpr (hsubset _ hmem))
    · exact Bool.eq_false_iff.mpr fun h => hcontrol (List.any_eq_true.mpr ⟨c, hsubset c hmem, h⟩)
    · exact Bool.eq_false_iff.mpr fun h => hbody (List.any_eq_true.mpr ⟨c, hmem, h⟩)
  · rw [hwritten]
    exact strip_eq_self_iff.mp (not_not.mp htrimmed)

/-- An accepted pattern matches its own path, or the paths whose first segments are its own. -/
theorem RepositoryPattern.pathMatches_iff (path : Str) : pathMatches p.text path = true ↔
    if p.directory then p.segments <+: path.split .slash else path = p.text := by
  have hpattern : IsPattern p.text := ⟨[], p.validate_text []⟩
  rw [pathMatches_iff_covers hpattern, Covers]
  have hbody := p.patternBody_text
  rw [patternBody] at hbody
  cases hdir : p.directory with
  | true =>
    have hends : p.text.endsWith "/**" = true := by
      rw [text, patternText, hdir]
      exact List.isSuffixOf_iff_suffix.mpr (List.suffix_append _ _)
    rw [if_pos hends] at hbody
    rw [if_pos hends, if_pos rfl, hbody, p.split_join]
  | false =>
    have hends : ¬p.text.endsWith "/**" = true := by
      intro h
      rw [if_pos h, text, patternText, hdir] at hbody
      have hlength := congrArg List.length hbody
      have hsuffix := (List.isSuffixOf_iff_suffix.mp h).length_le
      rw [text, patternText, hdir] at hsuffix
      have hthree : ("/**" : Str).length = 3 := rfl
      simp only [Bool.false_eq_true, if_false, List.append_nil, Str.dropEnd, List.rdrop,
        List.length_take] at hlength hsuffix
      omega
    rw [if_neg hends, if_neg Bool.false_ne_true]

end Language

/-- **The pattern language.** A string passes the validator if and only if it is a pattern as it
is written; a pattern matches a path if and only if it is exact and equal to it, or the segments
of its directory come first in the path; so what goes on after the name of the directory without
a slash never matches. -/
theorem repositoryPattern_language :
    (∀ pattern check_id : Str, validateRepositoryPattern pattern check_id = .ok () ↔
      ∃ p : RepositoryPattern, p.text = pattern) ∧
    (∀ (p : RepositoryPattern) (path : Str), pathMatches p.text path = true ↔
      if p.directory then p.segments <+: path.split .slash else path = p.text) ∧
    ∀ (p : RepositoryPattern) (c : CodePoint) (rest : Str), p.directory = true → c ≠ .slash →
      pathMatches p.text (Str.join "/" p.segments ++ c :: rest) = false := by
  refine ⟨fun pattern check_id => ⟨exists_pattern_of_valid, ?_⟩, fun p => p.pathMatches_iff, ?_⟩
  · rintro ⟨p, rfl⟩
    exact p.validate_text check_id
  · intro p c rest hdir hc
    refine Bool.eq_false_iff.mpr fun hmatch => ?_
    have hprefix := (p.pathMatches_iff _).mp hmatch
    rw [if_pos hdir] at hprefix
    nth_rewrite 1 [← p.split_join] at hprefix
    obtain heq | hslash := splitOn_prefix_iff.mp hprefix
    · exact absurd (List.append_right_eq_self.mp heq) (List.cons_ne_nil c rest)
    · obtain ⟨more, hmore⟩ := hslash
      rw [List.append_assoc] at hmore
      have htail := List.append_cancel_left hmore
      exact hc (List.cons.inj htail).1.symm

section Declarations

/-- An exact repository path. -/
structure IsExactPath (path : Str) : Prop where
  trimmed : Trimmed path
  named : ∀ segment ∈ path.split .slash, segment ∉ (["", ".", ".."] : List Str)
  chars : ∀ c ∈ path, c ≠ 0x5c ∧ c.isControl = false ∧ isPatternChar c = false

/-- An ASCII decimal positive integer without a leading zero. -/
def IsPositiveDecimal (version : Str) : Prop :=
  ∃ digit digits, version = digit :: digits ∧ digit.isNonzeroDigit = true ∧
    ∀ c ∈ digits, c.isDigit = true

/-- A declaration: an exact path, a space, the letter `v` and a version. -/
def Declares (declaration path : Str) : Prop :=
  IsExactPath path ∧ ∃ version, IsPositiveDecimal version ∧
    declaration = path ++ 0x20 :: 0x76 :: version

/-- A declaration but for its version, which has decimal digits of other scripts. -/
def HasForeignDigits (declaration : Str) : Prop :=
  ∃ path digit digits, IsExactPath path ∧ digit.isNonzeroDigit = true ∧
    (∀ c ∈ digits, c.isDecimal = true) ∧ (∃ c ∈ digits, c.isDigit = false) ∧
    declaration = path ++ 0x20 :: 0x76 :: digit :: digits

/-- ASCII digits are decimal digits. -/
theorem isDecimal_of_isDigit {c : CodePoint} (h : c.isDigit = true) : c.isDecimal = true := by
  simp only [CodePoint.isDigit, Bool.and_eq_true, decide_eq_true_eq, Fin.le_def] at h
  have hlow : 0x30 ≤ c.val := h.1
  have hhigh : c.val ≤ 0x39 := h.2
  refine List.any_eq_true.mpr ⟨0x30, List.mem_cons_self, ?_⟩
  have hzero : (0x30 : CodePoint).val = 0x30 := rfl
  simp only [Bool.and_eq_true, decide_eq_true_eq, Fin.le_def, hzero]
  exact ⟨hlow, by omega⟩

/-- The last space splits a string that has one. -/
theorem rpartition_eq_some {s before_ after_ : Str} {sep : CodePoint} :
    s.rpartition sep = some (before_, after_) ↔ s = before_ ++ sep :: after_ ∧ sep ∉ after_ := by
  have hsplit (first last : Str) (h : sep ∉ last) :
      (first ++ sep :: last).rpartition sep = some (first, last) := by
    have hlast : ∀ c ∈ last, (decide (c ≠ sep)) = true := by
      intro c hc
      simpa using fun heq : c = sep => h (heq ▸ hc)
    have hdrop : (first ++ sep :: last).rdropWhile (fun c => c ≠ sep) = first ++ [sep] := by
      rw [List.rdropWhile, List.reverse_append, List.reverse_cons, List.append_assoc,
        List.dropWhile_append_of_pos fun c hc => hlast c (List.mem_reverse.mp hc)]
      simp
    have htake : (first ++ sep :: last).rtakeWhile (fun c => c ≠ sep) = last := by
      rw [List.rtakeWhile, List.reverse_append, List.reverse_cons, List.append_assoc,
        List.takeWhile_append_of_pos fun c hc => hlast c (List.mem_reverse.mp hc)]
      simp
    rw [Str.rpartition, if_pos (by simp), hdrop, htake, List.dropLast_concat]
  constructor
  · intro h
    by_cases hmem : sep ∈ s
    · obtain ⟨first, last, rfl, hlast⟩ : ∃ first last, s = first ++ sep :: last ∧ sep ∉ last := by
        obtain ⟨last, first, hreverse, hlast⟩ :=
          List.eq_append_cons_of_mem (List.mem_reverse.mpr hmem)
        refine ⟨first.reverse, last.reverse, ?_, fun h => hlast (List.mem_reverse.mp h)⟩
        rw [← List.reverse_reverse s, hreverse]
        simp
      rw [hsplit first last hlast, Option.some.injEq, Prod.mk.injEq] at h
      exact ⟨by rw [h.1, h.2], h.2 ▸ hlast⟩
    · rw [Str.rpartition, if_neg hmem] at h
      exact nomatch h
  · rintro ⟨rfl, hlast⟩
    exact hsplit before_ after_ hlast

/-- An exact path is a pattern without `/**`. -/
theorem isExactPath_iff {path : Str} : IsExactPath path ↔
    ∃ p : RepositoryPattern, p.directory = false ∧ p.text = path := by
  constructor
  · intro h
    have hjoin : Str.join "/" (path.split .slash) = path := List.intercalate_splitOn CodePoint.slash
    have hwritten : patternText (path.split .slash) false = path := by
      rw [patternText, hjoin]
      exact List.append_nil _
    refine ⟨⟨path.split .slash, false, List.splitOn_ne_nil _ _, fun segment hsegment =>
      ⟨h.named segment hsegment, not_mem_segment _ _ hsegment, fun c hc =>
        h.chars c (mem_of_mem_segment hsegment hc)⟩, hwritten.symm ▸ h.trimmed⟩, rfl, hwritten⟩
  · rintro ⟨p, hdir, rfl⟩
    have htext : p.text = Str.join "/" p.segments := by
      rw [RepositoryPattern.text, patternText, hdir]
      exact List.append_nil _
    refine ⟨p.trimmed, ?_, ?_⟩
    · rw [htext, p.split_join]
      exact fun segment hsegment => (p.valid segment hsegment).named
    · rw [htext]
      exact p.join_plain

/-- An exact path is not empty. -/
theorem IsExactPath.ne_nil {path : Str} (h : IsExactPath path) : path ≠ [] := by
  rintro rfl
  exact h.named [] (by decide) (by decide)

/-- What the validator accepts without pattern characters is an exact path. -/
theorem validateRepositoryPattern_exact {path check_id : Str} :
    (path.any isPatternChar = false ∧ validateRepositoryPattern path check_id = .ok ()) ↔
      IsExactPath path := by
  constructor
  · rintro ⟨hplain, hvalid⟩
    obtain ⟨p, rfl⟩ := exists_pattern_of_valid hvalid
    refine isExactPath_iff.mpr ⟨p, Bool.eq_false_iff.mpr fun hdir => ?_, rfl⟩
    have hstar : (0x2a : CodePoint) ∈ p.text := by
      rw [RepositoryPattern.text, patternText, if_pos hdir]
      exact List.mem_append_right _ (by decide)
    exact absurd (List.any_eq_false.mp hplain _ hstar) (by decide)
  · intro h
    obtain ⟨p, -, rfl⟩ := isExactPath_iff.mp h
    exact ⟨List.any_eq_false.mpr fun c hc => by simp [(h.chars c hc).2.2], p.validate_text check_id⟩

/-- The versions that the code accepts have decimal digits of any script after the first one. -/
theorem isVersion_iff {version : Str} : isVersion version = true ↔ ∃ digit digits,
    version = 0x76 :: digit :: digits ∧ digit.isNonzeroDigit = true ∧
      ∀ c ∈ digits, c.isDecimal = true := by
  rcases version with _ | ⟨v, _ | ⟨digit, digits⟩⟩
  · exact iff_of_false (by decide) (by simp)
  · exact iff_of_false (by simp [isVersion]) (by simp)
  · simp only [isVersion, Bool.and_eq_true, decide_eq_true_eq, List.all_eq_true, List.cons.injEq]
    constructor
    · rintro ⟨⟨rfl, hdigit⟩, hdigits⟩
      exact ⟨digit, digits, ⟨rfl, rfl, rfl⟩, hdigit, hdigits⟩
    · rintro ⟨_, _, ⟨rfl, rfl, rfl⟩, hdigit, hdigits⟩
      exact ⟨⟨rfl, hdigit⟩, hdigits⟩

/-- A version has no space. -/
theorem space_notMem_version {digit : CodePoint} {digits : Str}
    (hdigit : digit.isNonzeroDigit = true) (hdigits : ∀ c ∈ digits, c.isDecimal = true) :
    (0x20 : CodePoint) ∉ (0x76 :: digit :: digits : Str) := by
  intro h
  obtain h | h | h := (List.mem_cons.mp h).imp_right List.mem_cons.mp
  · exact absurd h (by decide)
  · subst h
    exact absurd hdigit (by decide)
  · exact absurd (hdigits _ h) (by decide)

/-- What the code accepts: an exact path, a space and a version in its own sense. -/
theorem contractChangePath_eq_ok_iff {declaration path : Str} :
    contractChangePath declaration = .ok path ↔ ∃ digit digits, IsExactPath path ∧
      digit.isNonzeroDigit = true ∧ (∀ c ∈ digits, c.isDecimal = true) ∧
      declaration = path ++ 0x20 :: 0x76 :: digit :: digits := by
  unfold contractChangePath
  constructor
  · intro h
    cases hparts : declaration.rpartition 0x20 with
    | none =>
      rw [hparts] at h
      exact nomatch h
    | some parts =>
      obtain ⟨before_, version⟩ := parts
      rw [hparts] at h
      obtain ⟨hbad, h⟩ := Checked.raiseIf_bind_eq_ok.mp h
      obtain ⟨_, hvalid, hpath⟩ := Checked.bind_eq_ok.mp h
      obtain rfl := Checked.pure_eq_ok.mp hpath
      simp only [not_or, Bool.not_eq_true, Bool.not_eq_false'] at hbad
      obtain ⟨-, hplain, hversion⟩ := hbad
      obtain ⟨digit, digits, rfl, hdigit, hdigits⟩ := isVersion_iff.mp hversion
      exact ⟨digit, digits,
        validateRepositoryPattern_exact.mp ⟨hplain, Checked.mapError_eq_ok.mp hvalid⟩, hdigit,
        hdigits, (rpartition_eq_some.mp hparts).1⟩
  · rintro ⟨digit, digits, hpath, hdigit, hdigits, rfl⟩
    obtain ⟨hplain, hvalid⟩ := validateRepositoryPattern_exact.mpr hpath
    have hparts : (path ++ 0x20 :: 0x76 :: digit :: digits : Str).rpartition 0x20 =
        some (path, 0x76 :: digit :: digits) :=
      rpartition_eq_some.mpr ⟨rfl, space_notMem_version hdigit hdigits⟩
    have hversion := isVersion_iff.mpr ⟨digit, digits, rfl, hdigit, hdigits⟩
    rw [hparts]
    refine Checked.raiseIf_bind_eq_ok.mpr ⟨?_, Checked.bind_eq_ok.mpr ⟨(), ?_, rfl⟩⟩
    · simp [hpath.ne_nil, hplain, hversion]
    · exact Checked.mapError_eq_ok.mpr hvalid

/-- `contract_change_path` has only one violation. -/
theorem contractChangePath_error {declaration : Str} {failure : Failure}
    (h : contractChangePath declaration = .error failure) : failure = malformedContractChange := by
  have honly : ErrorsIn (malformedContractChange = ·) (contractChangePath declaration) :=
    contractChangePath_refuses rfl declaration
  exact (honly failure h).symm

/-- The grammar of `contractChanges` holds for a string: it is accepted with the path that it
declares, and refused in one way if it declares none. -/
def FollowsGrammar (declaration : Str) : Prop :=
  (∀ path, contractChangePath declaration = .ok path ↔ Declares declaration path) ∧
    ∀ failure, contractChangePath declaration = .error failure →
      failure = .HarnessViolation .REPLAN_REQUIRED "plan.contract-changes"
        "contractChanges는 '<정확한 경로> v<양의 정수>' 형식이어야 합니다."

/-- **The grammar of `contractChanges`** holds for a string if and only if it is not an exact
path with a version that has decimal digits of other scripts. -/
theorem contractChange_grammar_iff (declaration : Str) :
    FollowsGrammar declaration ↔ ¬HasForeignDigits declaration := by
  constructor
  · rintro ⟨haccepts, -⟩ ⟨path, digit, digits, hpath, hdigit, hdigits, ⟨c, hc, hforeign⟩, rfl⟩
    have haccepted := contractChangePath_eq_ok_iff.mpr ⟨digit, digits, hpath, hdigit, hdigits, rfl⟩
    obtain ⟨-, _, ⟨digit', digits', rfl, hdigit', hdigits'⟩, heq⟩ := (haccepts path).mp haccepted
    have htail := List.append_cancel_left heq
    simp only [List.cons.injEq, true_and] at htail
    obtain ⟨-, rfl⟩ := htail
    exact absurd (hdigits' c hc) (by simp [hforeign])
  · intro hascii
    refine ⟨fun path => ⟨fun haccepted => ?_, ?_⟩, fun failure => contractChangePath_error⟩
    · obtain ⟨digit, digits, hpath, hdigit, hdigits, rfl⟩ :=
        contractChangePath_eq_ok_iff.mp haccepted
      refine ⟨hpath, digit :: digits, ⟨digit, digits, rfl, hdigit, fun c hc => ?_⟩, rfl⟩
      by_contra hforeign
      exact hascii ⟨path, digit, digits, hpath, hdigit, hdigits,
        ⟨c, hc, by simpa using hforeign⟩, rfl⟩
    · rintro ⟨hpath, _, ⟨digit, digits, rfl, hdigit, hdigits⟩, rfl⟩
      exact contractChangePath_eq_ok_iff.mpr
        ⟨digit, digits, hpath, hdigit, fun c hc => isDecimal_of_isDigit (hdigits c hc), rfl⟩

/-- A version with an Arabic digit is accepted. -/
theorem not_contractChange_grammar : ¬∀ declaration : Str, FollowsGrammar declaration := by
  intro h
  have haccepted : contractChangePath (("docs/a.md" : Str) ++ [0x20, 0x76, 0x31, 0x663]) =
      .ok "docs/a.md" := by decide +kernel
  obtain ⟨-, version, ⟨digit, digits, rfl, -, hdigits⟩, heq⟩ := ((h _).1 _).mp haccepted
  have htail := List.append_cancel_left heq
  simp only [List.cons.injEq, true_and] at htail
  obtain ⟨-, rfl⟩ := htail
  exact absurd (hdigits 0x663 List.mem_cons_self) (by decide)

end Declarations

section Domains

/-- The directory of the domains. -/
def domainsDirectory : List Str := ["src", "main", "java", "com", "example", "coffee", "domain"]

/-- A file below the directory of a domain. -/
def domainFile (domain file : Str) : Str := Str.join "/" (domainsDirectory ++ [domain, file])

/-- The name of a directory. -/
def IsDirectoryName (name : Str) : Prop := name ≠ [] ∧ CodePoint.slash ∉ name

/-- The pattern matches files of two domains. -/
def SpansDomains (pattern : Str) : Prop :=
  ∃ a b file file' : Str, IsDirectoryName a ∧ IsDirectoryName b ∧ a ≠ b ∧ file ≠ [] ∧ file' ≠ [] ∧
    pathMatches pattern (domainFile a file) = true ∧ pathMatches pattern (domainFile b file') = true

/-- The directories above the domains that plans may allow as a whole. -/
def overlookedPatterns : List Str :=
  ["src/main/java/com/**", "src/main/java/com/example/**", "src/main/java/com/example/coffee/**",
    "src/main/java/com/example/coffee/domain/**"]

/-- The segments of a file of a domain begin with those of the domain. -/
theorem split_domainFile {domain : Str} (h : IsDirectoryName domain) (file : Str) :
    (domainFile domain file).split .slash = domainsDirectory ++ domain :: file.split .slash := by
  have hname : ∀ segment ∈ domainsDirectory ++ [domain], CodePoint.slash ∉ segment := by
    intro segment hsegment
    obtain hsegment | hsegment := List.mem_append.mp hsegment
    · have hall : domainsDirectory.all (fun segment => CodePoint.slash ∉ segment) = true := by
        decide
      have hplain := List.all_eq_true.mp hall segment hsegment
      simpa using hplain
    · exact List.mem_singleton.mp hsegment ▸ h.2
  have hpath : domainFile domain file =
      Str.join "/" (domainsDirectory ++ [domain]) ++ CodePoint.slash :: file := by
    have happend := @intercalate_append _ ("/" : Str) (domainsDirectory ++ [domain]) [file]
      (by simp) (by simp)
    rw [List.append_assoc] at happend
    rw [domainFile, Str.join]
    exact happend.trans (by simp [Str.join, List.intercalate_singleton]; rfl)
  rw [hpath, Str.split, List.splitOn_append_cons_self]
  have hdirectory : List.splitOn CodePoint.slash (Str.join "/" (domainsDirectory ++ [domain])) =
      domainsDirectory ++ [domain] := List.splitOn_intercalate _ hname (by simp)
  rw [hdirectory, List.append_assoc]
  rfl

/-- A pattern that spans domains is a directory above them. -/
theorem RepositoryPattern.above_domains {p : RepositoryPattern} (h : SpansDomains p.text) :
    p.directory = true ∧ p.segments <+: domainsDirectory := by
  obtain ⟨a, b, file, file', ha, hb, hne, -, -, hmatch, hmatch'⟩ := h
  rw [p.pathMatches_iff] at hmatch hmatch'
  cases hdir : p.directory with
  | true =>
    rw [if_pos hdir, split_domainFile ha] at hmatch
    rw [if_pos hdir, split_domainFile hb] at hmatch'
    exact ⟨rfl, prefix_of_parting hne hmatch hmatch'⟩
  | false =>
    rw [hdir, if_neg Bool.false_ne_true] at hmatch hmatch'
    have hsplit : (domainFile a file).split .slash = (domainFile b file').split .slash := by
      rw [hmatch, hmatch']
    rw [split_domainFile ha, split_domainFile hb] at hsplit
    exact absurd (List.cons.inj (List.append_cancel_left hsplit)).1 hne

/-- The directories above the domains are forbidden, or overlooked. -/
theorem above_domains_overlooked {segments : List Str} (hne : segments ≠ [])
    (h : segments <+: domainsDirectory) : patternText segments true ∈ forbiddenPlanPatterns ∨
      patternText segments true ∈ overlookedPatterns := by
  have hall : domainsDirectory.inits.all (fun segments => segments = [] ||
      patternText segments true ∈ forbiddenPlanPatterns ||
      patternText segments true ∈ overlookedPatterns) = true := by decide +kernel
  have hcases := List.all_eq_true.mp hall segments ((List.mem_inits _ _).mpr h)
  simp only [Bool.or_eq_true, decide_eq_true_eq] at hcases
  obtain (hnil | hforbidden) | hoverlooked := hcases
  · exact absurd hnil hne
  · exact .inl hforbidden
  · exact .inr hoverlooked

/-- **Patterns and domains.** An accepted plan pattern matches files of one domain only if and
only if it is none of four directories above the domains. -/
theorem planPattern_domains_iff {pattern : Str} (h : validatePlanPattern pattern = .ok ()) :
    ¬SpansDomains pattern ↔ pattern ∉ overlookedPatterns := by
  obtain ⟨hforbidden, hvalid⟩ := Checked.raiseIf_bind_eq_ok.mp h
  obtain ⟨p, rfl⟩ := exists_pattern_of_valid hvalid
  refine not_congr ⟨fun hspans => ?_, fun hoverlooked => ?_⟩
  · obtain ⟨hdir, habove⟩ := p.above_domains hspans
    have htext : p.text = patternText p.segments true := by rw [RepositoryPattern.text, hdir]
    rw [htext] at hforbidden ⊢
    exact (above_domains_overlooked p.nonempty habove).resolve_left hforbidden
  · have hall : overlookedPatterns.all (fun pattern =>
        pathMatches pattern (domainFile "menu" "Menu.java") &&
          pathMatches pattern (domainFile "order" "Order.java")) = true := by decide +kernel
    have hmatch := List.all_eq_true.mp hall p.text hoverlooked
    rw [Bool.and_eq_true] at hmatch
    exact ⟨"menu", "order", "Menu.java", "Order.java", ⟨by decide, by decide⟩,
      ⟨by decide, by decide⟩, by decide, by decide, by decide, hmatch.1, hmatch.2⟩

/-- The pattern of the menu domain matches no file of another one. -/
theorem planPattern_domains_menu :
    ¬SpansDomains "src/main/java/com/example/coffee/domain/menu/**" :=
  (planPattern_domains_iff (by decide +kernel)).mpr (by decide +kernel)

/-- All domains are matched by a pattern that is accepted. -/
theorem not_planPattern_domains :
    ¬∀ pattern : Str, validatePlanPattern pattern = .ok () → ¬SpansDomains pattern := by
  intro h
  refine h "src/main/java/com/example/coffee/domain/**" (by decide +kernel)
    ⟨"menu", "order", "Menu.java", "Order.java", ⟨by decide, by decide⟩, ⟨by decide, by decide⟩,
      by decide, by decide, by decide, by decide +kernel, by decide +kernel⟩

end Domains

end CoffeeOrder.Harness
