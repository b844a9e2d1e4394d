import CoffeeOrder.Harness.RequiredChecks
import CoffeeOrder.Kit.LineScan

/-!
# The verdict on the Java toolchain

`run_prepare_preflight` looks for Java 17 in the reason of the toolchain check, which
holds no more than the last 4000 characters of what `./gradlew` has printed.
-/

namespace CoffeeOrder.Harness

open Kit Python

section Verdict

variable [ByteRuntime]

/-- No white space is matched by `\w`. -/
def SpacesEndWords : Prop := ∀ c, CodePoint.isSpace c = true → isWordChar c = false

/-- The text starts with an entry for Java 17. -/
def StartsWithJava17 (text : Str) : Prop :=
  ∃ gap rest : Str, text = "Language Version:" ++ (gap ++ ("17" ++ rest)) ∧
    (∀ c ∈ gap, CodePoint.isSpace c = true) ∧ ∀ c, rest.head? = some c → isWordChar c = false

/-- The text has an entry for Java 17. -/
def ListsJava17 (text : Str) : Prop := ∃ entry : Str, entry <:+ text ∧ StartsWithJava17 entry

/-- An entry starts within the last 4000 characters. -/
def EndsWithJava17 (text : Str) : Prop :=
  ∃ entry : Str, entry <:+ text ∧ entry.length ≤ 4000 ∧ StartsWithJava17 entry

section Text

/-- What is matched at one place of the text. -/
theorem startsWithJava17_iff {text rest : Str}
    (hrest : rest = (text.drop (Str.ofString "Language Version:").length).dropWhile
      CodePoint.isSpace) :
    (text.startsWith "Language Version:" && rest.startsWith "17" &&
      !(rest.drop 2).head?.any isWordChar) = true ↔ StartsWithJava17 text := by
  subst hrest
  simp only [Bool.and_eq_true, Bool.not_eq_true', Str.startsWith, List.isPrefixOf_iff_prefix]
  constructor
  · rintro ⟨⟨⟨behind, rfl⟩, hversion⟩, hend⟩
    rw [List.drop_left] at hversion hend
    obtain ⟨rest, hrest⟩ := hversion
    refine ⟨behind.takeWhile CodePoint.isSpace, rest, ?_, fun c hc => List.mem_takeWhile_imp hc,
      fun c hc => ?_⟩
    · rw [hrest, List.takeWhile_append_dropWhile]
    · rw [← hrest, List.drop_left' (by decide), hc] at hend
      simpa using hend
  · rintro ⟨gap, rest, rfl, hgap, hend⟩
    have hspace : (gap ++ (("17" : Str) ++ rest)).dropWhile CodePoint.isSpace = "17" ++ rest := by
      rw [List.dropWhile_append_of_pos hgap]
      rfl
    rw [List.drop_left, hspace]
    refine ⟨⟨List.prefix_append _ _, List.prefix_append _ _⟩, ?_⟩
    rw [List.drop_left' (by decide)]
    cases hhead : rest.head? with
    | none => rfl
    | some c => simpa using hend c hhead

/-- The expression finds just the listings of Java 17. -/
theorem mentionsJava17_iff {text : Str} : mentionsJava17 text = true ↔ ListsJava17 text := by
  rw [mentionsJava17, List.any_eq_true]
  exact exists_congr fun entry => and_congr (List.mem_tails _ _) (startsWithJava17_iff rfl)

/-- White space in front of a text does not matter. -/
theorem listsJava17_dropWhile {text : Str} :
    ListsJava17 (text.dropWhile CodePoint.isSpace) ↔ ListsJava17 text := by
  constructor
  · rintro ⟨entry, hsuffix, hentry⟩
    exact ⟨entry, hsuffix.trans (List.dropWhile_suffix _), hentry⟩
  · rintro ⟨entry, hsuffix, hentry⟩
    obtain hkept | hcut := suffix_dropWhile CodePoint.isSpace hsuffix
    · exact ⟨entry, hkept, hentry⟩
    · have hfront : entry.dropWhile CodePoint.isSpace = entry := by
        obtain ⟨gap, rest, rfl, -⟩ := hentry
        rfl
      rw [hcut, hfront]
      exact ⟨entry, List.suffix_rfl, hentry⟩

/-- Nor does a blank at the end. -/
theorem listsJava17_concat (hspaces : SpacesEndWords) {text : Str} {blank : CodePoint}
    (hblank : CodePoint.isSpace blank = true) :
    ListsJava17 (text ++ [blank]) ↔ ListsJava17 text := by
  constructor
  · rintro ⟨entry, hsuffix, gap, rest, rfl, hgap, hend⟩
    obtain hnil | ⟨front, hfront, hsuffix⟩ := List.suffix_concat_iff.mp hsuffix
    · exact absurd hnil (List.cons_ne_nil _ _)
    obtain rfl | ⟨shorter, last, rfl⟩ := rest.eq_nil_or_concat
    · have hlast := congrArg List.getLast? hfront
      rw [List.append_nil, ← List.append_assoc, List.getLast?_append_of_ne_nil _ (by decide),
        List.getLast?_concat] at hlast
      exact absurd hblank (Option.some.inj hlast ▸ by decide)
    · simp only [List.concat_eq_append, ← List.append_assoc] at hfront
      obtain ⟨rfl, hlast⟩ := List.append_inj' hfront rfl
      refine ⟨_, hsuffix, gap, shorter, by simp only [List.append_assoc], hgap, fun c hc => ?_⟩
      refine hend c ?_
      cases shorter with
      | nil => exact nomatch hc
      | cons d shorter => exact hc
  · rintro ⟨entry, ⟨before, rfl⟩, gap, rest, rfl, hgap, hend⟩
    refine ⟨_, ⟨before, (List.append_assoc _ _ _).symm⟩, gap, rest ++ [blank], ?_, hgap, ?_⟩
    · simp only [List.append_assoc]
    · intro c hc
      cases rest with
      | nil => exact Option.some.inj hc ▸ hspaces blank hblank
      | cons d rest => exact hend c hc

/-- White space after a listing changes nothing. -/
theorem listsJava17_append (hspaces : SpacesEndWords) {text white : Str}
    (hwhite : ∀ c ∈ white, CodePoint.isSpace c = true) :
    ListsJava17 (text ++ white) ↔ ListsJava17 text := by
  induction white using List.reverseRecOn with
  | nil => rw [List.append_nil]
  | append_singleton white blank ih =>
    obtain ⟨hwhite, hblank⟩ := List.forall_mem_append.mp hwhite
    rw [← List.append_assoc, listsJava17_concat hspaces (hblank blank (List.mem_singleton_self _)),
      ih hwhite]

/-- Stripping a listing changes nothing. -/
theorem listsJava17_strip (hspaces : SpacesEndWords) {text : Str} :
    ListsJava17 (Str.strip text) ↔ ListsJava17 text := by
  rw [← @listsJava17_dropWhile _ text, Str.strip]
  generalize text.dropWhile CodePoint.isSpace = kept
  have hsplit : kept = Str.rstrip kept ++ (kept.reverse.takeWhile CodePoint.isSpace).reverse := by
    rw [Str.rstrip, ← List.reverse_append, List.takeWhile_append_dropWhile, List.reverse_reverse]
  rw [hsplit, listsJava17_append hspaces fun c hc => ?_, ← hsplit]
  exact List.mem_takeWhile_imp (List.mem_reverse.mp hc)

/-- The tail of an output has an entry if one starts within the last 4000 characters. -/
theorem listsJava17_outputTail (hspaces : SpacesEndWords) {output : Str} :
    ListsJava17 (outputTail output) ↔ EndsWithJava17 output := by
  rw [outputTail, listsJava17_strip hspaces]
  have hlength : (output.drop (output.length - 4000)).length ≤ 4000 := by
    rw [List.length_drop]
    omega
  constructor
  · rintro ⟨entry, hsuffix, hentry⟩
    exact ⟨entry, hsuffix.trans (List.drop_suffix _ _), hsuffix.length_le.trans hlength, hentry⟩
  · rintro ⟨entry, hsuffix, hshort, hentry⟩
    refine ⟨entry, List.suffix_of_suffix_length_le hsuffix (List.drop_suffix _ _) ?_, hentry⟩
    rw [List.length_drop]
    have hle := hsuffix.length_le
    omega

/-- A text without the label has no entry. -/
theorem not_listsJava17 {text : Str} (h : ¬("Language Version:" : Str) <:+: text) :
    ¬ListsJava17 text := by
  rintro ⟨entry, hsuffix, gap, rest, rfl, -⟩
  exact h ((List.prefix_append _ _).isInfix.trans hsuffix.isInfix)

end Text

section Preflight

/-- The questions about an environment command. -/
def AsksFor (root : Path) (name : Str) (command : List Str) (op : Op) : Prop :=
  op = .which name ∨ op = .run command root false ∨ op = .duration

/-- An environment check runs only its command. -/
theorem blockedEnvironmentCheck_within (root : Path) (check_id name : Str) (command : List Str) :
    (blockedEnvironmentCheck root check_id command).Within (AsksFor root name command)
      fun _ => True := by
  refine ⟨.inr (.inl rfl), fun answer => ?_⟩
  cases answer with
  | error error =>
    exact Script.Within.ite ⟨.inr (.inr rfl), fun _ => trivial⟩ trivial
  | ok result => exact ⟨.inr (.inr rfl), fun _ => trivial⟩

/-- A check of a program runs only its command. -/
theorem binaryCheck_within (root : Path) (check_id name argument : Str) :
    (binaryCheck root check_id name argument).Within (AsksFor root name [name, argument])
      fun _ => True := by
  refine ⟨.inl rfl, fun answer => ?_⟩
  cases answer with
  | none => trivial
  | some _ => exact blockedEnvironmentCheck_within _ _ _ _

/-- The check carries the id that was asked for. -/
theorem binaryCheck_id {root : Path} {check_id name argument : Str} {steps : Trace}
    {check : CheckResult}
    (h : (binaryCheck root check_id name argument).replay steps = some (.ok check)) :
    check.check_id = check_id := by
  have hmeets : (binaryCheck root check_id name argument).Meets (fun _ _ => True) (fun _ => True)
      fun check => check.check_id = check_id := by
    refine meets_ask fun found _ => ?_
    cases found with
    | none => rfl
    | some path =>
      refine meets_ask fun answer _ => ?_
      cases answer with
      | error error => exact Script.Meets.ite (meets_ask fun _ _ => rfl) trivial
      | ok result => exact meets_ask fun _ _ => rfl
  exact (hmeets.replay (fun _ _ => trivial) h).2 check rfl

/-- The check of a command that was run. -/
theorem blockedEnvironmentCheck_replay_run {root : Path} {check_id : Str} {command : List Str}
    {result : CompletedProcess} {steps : Trace} {check : CheckResult}
    (h : (blockedEnvironmentCheck root check_id command).replay steps = some (.ok check))
    (hrun : ⟨.run command root false, .ok result⟩ ∈ steps) :
    check.check_id = check_id ∧
      check.state = (if result.returncode = 0 then State.PASS else .BLOCKED) ∧
      check.reason = (lastOutput result.stdout result.stderr).orElse
        (if result.returncode = 0 then "환경 명령이 성공했습니다." else "환경 명령이 실패했습니다.") := by
  obtain ⟨answer, rest, rfl, hrest⟩ := Script.replay_ask.mp h
  have hduration : ∀ (f : ℕ → CheckResult) (rest : Trace),
      (do return f (← ask .duration) : HarnessM CheckResult).replay rest = some (.ok check) →
      ∃ ms, rest = [⟨.duration, ms⟩] ∧ check = f ms := by
    intro f rest hreplay
    obtain ⟨ms, behind, rfl, hbehind⟩ := Script.replay_ask.mp hreplay
    obtain ⟨rfl, hcheck⟩ := Script.replay_done.mp hbehind
    exact ⟨ms, rfl, Except.ok.inj hcheck⟩
  cases answer with
  | error error =>
    by_cases hos : error.isOSError = true
    · simp only [Script.bind, hos, if_true] at hrest
      obtain ⟨ms, rfl, -⟩ := hduration _ _ hrest
      simp at hrun
    · simp only [Script.bind, hos] at hrest
      cases (Script.replay_throw.mp hrest).2
  | ok result' =>
    obtain ⟨ms, rfl, rfl⟩ := hduration _ _ hrest
    obtain rfl : result = result' := by simpa using hrun
    by_cases hzero : result.returncode = 0
    · simp [hzero]
    · simp [hzero]

omit [ByteRuntime] in
/-- Looking for an executable file runs no command. -/
theorem isExecutableFile_within (path : Path) : (isExecutableFile path).Within
    (fun op => op = .isFile path ∨ op = .isExecutable path) fun _ => True := by
  refine ⟨.inl rfl, fun isFile => ?_⟩
  cases isFile with
  | false => trivial
  | true => exact ⟨.inr rfl, fun _ => trivial⟩

/-- The toolchain check of a command that has exited with zero. -/
theorem toolchainCheck_replay_run (hspaces : SpacesEndWords) {root : Path}
    {result : CompletedProcess} {steps : Trace} {check : CheckResult}
    (h : (toolchainCheck root).replay steps = some (.ok check))
    (hrun : ⟨.run ["./gradlew", "-q", "javaToolchains"] root false, .ok result⟩ ∈ steps)
    (hzero : result.returncode = 0) :
    check.check_id = "environment.java17-toolchain" ∧ (check.state = .PASS ↔
      EndsWithJava17 (ByteRuntime.decodeReplace (result.stdout ++ result.stderr))) := by
  obtain ⟨executable, asked, steps, rfl, hasked, h⟩ := Script.replay_bind_ok.mp h
  have hlate : ⟨.run ["./gradlew", "-q", "javaToolchains"] root false, .ok result⟩ ∈ steps := by
    refine (List.mem_append.mp hrun).resolve_left fun hearly => ?_
    have hop := ((isExecutableFile_within _).replay hasked).1 _ hearly
    simp at hop
  cases executable with
  | false =>
    obtain ⟨rfl, -⟩ := Script.replay_done.mp h
    exact absurd hlate List.not_mem_nil
  | true =>
    obtain ⟨found, first, second, rfl, hfound, hsecond⟩ := Script.replay_bind_ok.mp h
    obtain ⟨rfl, hcheck⟩ := Script.replay_done.mp hsecond
    rw [List.append_nil] at hlate
    obtain rfl := Except.ok.inj hcheck
    obtain ⟨hid, hstate, hreason⟩ := blockedEnvironmentCheck_replay_run hfound hlate
    rw [if_pos hzero] at hstate hreason
    have hmentions : mentionsJava17 found.reason = true ↔
        EndsWithJava17 (ByteRuntime.decodeReplace (result.stdout ++ result.stderr)) := by
      rw [mentionsJava17_iff, hreason, ← listsJava17_outputTail hspaces, lastOutput, Str.orElse]
      split
      · next hnil =>
        rw [hnil]
        exact iff_of_false (not_listsJava17 (by decide)) (not_listsJava17 (by decide))
      · rfl
    unfold requireJava17
    by_cases hmention : mentionsJava17 found.reason = true
    · simp [hstate, hmention, hid, ← hmentions]
    · simp [hstate, hmention, hid, ← hmentions]

/-- The preflight passes the toolchain if an entry starts within the last 4000 characters. -/
theorem toolchain_reported_iff (hspaces : SpacesEndWords) {root : Path} {steps : Trace}
    {checks : List CheckResult} {result : CompletedProcess}
    (h : (runPreparePreflight root).replay steps = some (.ok checks))
    (hrun : ⟨.run ["./gradlew", "-q", "javaToolchains"] root false, .ok result⟩ ∈ steps)
    (hzero : result.returncode = 0) :
    (∃ check ∈ checks, check.check_id = "environment.java17-toolchain" ∧ check.state = .PASS) ↔
      EndsWithJava17 (ByteRuntime.decodeReplace (result.stdout ++ result.stderr)) := by
  obtain ⟨version, asked, afterPython, rfl, hasked, hpython⟩ := Script.replay_bind_ok.mp h
  obtain ⟨_, _, rfl, hdone⟩ := Script.replay_ask.mp hasked
  obtain ⟨rfl, -⟩ := Script.replay_done.mp hdone
  obtain ⟨java, javaSteps, afterJava, rfl, hjava, hrest⟩ := Script.replay_bind_ok.mp hpython
  obtain ⟨docker, dockerSteps, afterDocker, rfl, hdocker, hrest'⟩ := Script.replay_bind_ok.mp hrest
  obtain ⟨toolchain, toolchainSteps, last, rfl, htoolchain, hlast⟩ :=
    Script.replay_bind_ok.mp hrest'
  obtain ⟨rfl, hchecks⟩ := Script.replay_done.mp hlast
  have hbinary {check_id name argument : Str} {check : CheckResult} {steps : Trace}
      (hreplay : (binaryCheck root check_id name argument).replay steps = some (.ok check))
      (hname : [name, argument] ≠ [("./gradlew" : Str), "-q", "javaToolchains"]) :
      ⟨.run ["./gradlew", "-q", "javaToolchains"] root false, .ok result⟩ ∉ steps := fun hmem => by
    have hop := ((binaryCheck_within _ _ _ _).replay hreplay).1 _ hmem
    simp [AsksFor] at hop
  have hmem : ⟨.run ["./gradlew", "-q", "javaToolchains"] root false, .ok result⟩ ∈
      toolchainSteps := by
    simpa [hbinary hjava (by decide), hbinary hdocker (by decide)] using hrun
  obtain ⟨hid, hstate⟩ := toolchainCheck_replay_run hspaces htoolchain hmem hzero
  have hpythonId : (pythonCheck version).check_id ≠ "environment.java17-toolchain" := by
    change ("environment.python" : Str) ≠ "environment.java17-toolchain"
    decide
  have hjavaId : java.check_id ≠ "environment.java17-toolchain" := by
    rw [binaryCheck_id hjava]
    decide
  have hdockerId : docker.check_id ≠ "environment.java17-toolchain" := by
    rw [binaryCheck_id hdocker]
    decide
  obtain rfl := Except.ok.inj hchecks
  simp [hpythonId, hjavaId, hdockerId, hid, hstate]

/-- **When truncation changes the verdict.** For every output of a toolchain command that has
exited with zero, the preflight passes exactly the outputs with an entry for Java 17 if and
only if some entry starts within the last 4000 characters or there is none at all. -/
theorem toolchain_verdict_iff (hspaces : SpacesEndWords) {root : Path} {steps : Trace}
    {checks : List CheckResult} {result : CompletedProcess}
    (h : (runPreparePreflight root).replay steps = some (.ok checks))
    (hrun : ⟨.run ["./gradlew", "-q", "javaToolchains"] root false, .ok result⟩ ∈ steps)
    (hzero : result.returncode = 0) :
    let output := ByteRuntime.decodeReplace (result.stdout ++ result.stderr)
    ((∃ check ∈ checks, check.check_id = "environment.java17-toolchain" ∧ check.state = .PASS) ↔
        ListsJava17 output) ↔
      (ListsJava17 output → EndsWithJava17 output) := by
  intro output
  have hlists : EndsWithJava17 output → ListsJava17 output := fun ⟨entry, hsuffix, _, hentry⟩ =>
    ⟨entry, hsuffix, hentry⟩
  rw [toolchain_reported_iff hspaces h hrun hzero]
  exact ⟨Iff.mpr, fun h => ⟨hlists, h⟩⟩

end Preflight

end Verdict

namespace Sample

/-- The runtime of the samples matches no white space by `\w`. -/
theorem spacesEndWords : SpacesEndWords := by
  intro c hc
  have hbeyond : ByteRuntime.isWordChar c = (c.isSlugChar || c == 0x5f) := rfl
  rw [isWordChar, hbeyond]
  simp only [CodePoint.isSpace, Bool.or_eq_true, Bool.and_eq_true, decide_eq_true_eq, beq_iff_eq,
    Fin.le_def, Fin.ext_iff] at hc
  split
  all_goals
    simp only [CodePoint.isSlugChar, CodePoint.isDigit, Bool.or_eq_false_iff, Bool.and_eq_false_iff,
      decide_eq_false_iff_not, beq_eq_false_iff_ne, ne_eq, Fin.le_def, Fin.ext_iff]
    simp only [Fin.coe_ofNat_eq_mod, Nat.reduceMod] at hc ⊢
    omega

/-- What a toolchain command prints and returns. -/
def listed (output : Bytes) : CompletedProcess := ⟨0, output, []⟩

/-- A world in which every command prints the same output. -/
def printing (output : Bytes) (s : Unit) (op : Op) : op.Answer × Unit :=
  match op with
  | .run _ _ _ => (.ok (listed output), ())
  | op => calm s op

/-- In the sample the toolchain command has printed the output. -/
theorem printing_ran (output : Bytes) :
    ⟨.run ["./gradlew", "-q", "javaToolchains"] root false, .ok (listed output)⟩ ∈
      ((runPreparePreflight root).exec (printing output) ()).1 := by
  have hstep : ((runPreparePreflight root).exec (printing output) ()).1[9]? =
      some ⟨.run ["./gradlew", "-q", "javaToolchains"] root false, .ok (listed output)⟩ := rfl
  exact List.mem_of_getElem? hstep

/-- The results of the preflight when every command prints the same output. -/
theorem printing_checks (output : Bytes) :
    ∃ checks, (runPreparePreflight root).replay
        ((runPreparePreflight root).exec (printing output) ()).1 = some (.ok checks) :=
  ⟨_, Script.replay_exec (printing output) _ ()⟩

/-- The entry of the listing for Java 17. -/
def entry : Bytes := Bytes.ofString "Language Version: 17\n"

/-- The sample output starts with Java 17. -/
theorem startsWithJava17_entry (rest : Bytes) :
    StartsWithJava17 (ByteRuntime.decodeReplace (entry ++ rest)) := by
  refine ⟨[0x20], 0xa :: ByteRuntime.decodeReplace rest, ?_,
    List.forall_mem_singleton.mpr (by decide), fun c hc => ?_⟩
  · change List.map _ _ = _
    rw [List.map_append]
    rfl
  · exact Option.some.inj hc ▸ by decide

/-- A listing in which 4000 characters follow the entry. -/
def longListing : Bytes := entry ++ List.replicate 4000 0x78

/-- The decoded sample output ends in 4000 further characters. -/
theorem decode_longListing :
    ByteRuntime.decodeReplace (longListing ++ []) =
      ByteRuntime.decodeReplace entry ++ List.replicate 4000 0x78 := by
  change List.map _ _ = _
  rw [List.append_nil, longListing, List.map_append, List.map_replicate]
  rfl

/-- The sample output lists Java 17. -/
theorem listsJava17_longListing : ListsJava17 (ByteRuntime.decodeReplace (longListing ++ [])) := by
  refine ⟨_, List.suffix_rfl, ?_⟩
  rw [List.append_nil]
  exact startsWithJava17_entry _

/-- Its last 4000 characters do not. -/
theorem not_endsWithJava17_longListing :
    ¬EndsWithJava17 (ByteRuntime.decodeReplace (longListing ++ [])) := by
  rintro ⟨_, hsuffix, hshort, gap, rest, rfl, -⟩
  rw [decode_longListing] at hsuffix
  have hlate := List.suffix_of_suffix_length_le hsuffix (List.suffix_append _ _)
    (by rwa [List.length_replicate])
  have hletter := List.eq_of_mem_replicate (hlate.subset List.mem_cons_self)
  exact absurd hletter (by decide)

end Sample

/-- A listing that ends with the entry passes. -/
theorem toolchain_verdict_iff_listed :
    ∃ checks, (runPreparePreflight Sample.root).replay
        ((runPreparePreflight Sample.root).exec (Sample.printing Sample.entry) ()).1 =
          some (.ok checks) ∧
      ∃ check ∈ checks, check.check_id = "environment.java17-toolchain" ∧ check.state = .PASS := by
  obtain ⟨checks, hchecks⟩ := Sample.printing_checks Sample.entry
  have hentry := Sample.startsWithJava17_entry []
  have hlists : ListsJava17 (ByteRuntime.decodeReplace (Sample.entry ++ [])) :=
    ⟨_, List.suffix_rfl, hentry⟩
  have hverdict := toolchain_verdict_iff Sample.spacesEndWords hchecks
    (Sample.printing_ran Sample.entry) rfl
  exact ⟨checks, hchecks,
    (hverdict.mpr fun _ => ⟨_, List.suffix_rfl, by decide, hentry⟩).mpr hlists⟩

/-- Not for every output: the entry may be followed by 4000 other characters. -/
theorem not_toolchain_verdict :
    ¬∀ (root : Path) (steps : Trace) (checks : List CheckResult) (result : CompletedProcess),
      (runPreparePreflight root).replay steps = some (.ok checks) →
      ⟨.run ["./gradlew", "-q", "javaToolchains"] root false, .ok result⟩ ∈ steps →
      result.returncode = 0 →
      ((∃ check ∈ checks, check.check_id = "environment.java17-toolchain" ∧ check.state = .PASS) ↔
        ListsJava17 (ByteRuntime.decodeReplace (result.stdout ++ result.stderr))) := by
  intro hclaim
  obtain ⟨checks, hchecks⟩ := Sample.printing_checks Sample.longListing
  have hran := Sample.printing_ran Sample.longListing
  have hreported := (toolchain_reported_iff Sample.spacesEndWords hchecks hran rfl).mp
    ((hclaim _ _ _ _ hchecks hran rfl).mpr Sample.listsJava17_longListing)
  exact Sample.not_endsWithJava17_longListing hreported

end CoffeeOrder.Harness
