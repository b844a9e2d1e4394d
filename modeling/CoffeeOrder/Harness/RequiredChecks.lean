import CoffeeOrder.Harness.Runner

/-!
# The built-in check runner

`run_required_checks` produces the results that `validate_check_runner_results` asks for,
for the ids that `required_check_ids` takes from the policy.
-/

namespace CoffeeOrder.Harness

open Kit Python

section Runner

variable [ByteRuntime]

omit [ByteRuntime] in
/-- The last 4000 characters of an output. -/
def outputTail (output : Str) : Str := Str.strip (output.drop (output.length - 4000))

/-- `_last_output`. -/
def lastOutput (stdout stderr : Bytes) : Str :=
  outputTail (ByteRuntime.decodeReplace (stdout ++ stderr))

/-- The result of a command that could not be run. -/
def unrunnable (check_id : Str) (state : State) (command : List Str) (error : Exc)
    (duration_ms : ℕ) : CheckResult :=
  ⟨check_id, state, "명령을 실행할 수 없습니다: " ++ error.text, command, none, some duration_ms⟩

/-- `blocked_environment_check`. -/
def blockedEnvironmentCheck (root : Path) (check_id : Str) (command : List Str) :
    HarnessM CheckResult := do
  match ← ask (.run command root false) with
  | .error error =>
    if error.isOSError then
      return unrunnable check_id .BLOCKED command error (← ask .duration)
    else throw (.raised error)
  | .ok result =>
    let duration_ms ← ask .duration
    let output := lastOutput result.stdout result.stderr
    let state := if result.returncode = 0 then State.PASS else .BLOCKED
    let reason := output.orElse
      (if state = .PASS then "환경 명령이 성공했습니다." else "환경 명령이 실패했습니다.")
    return ⟨check_id, state, reason, command, some result.returncode, some duration_ms⟩

/-- `re.search(r"Language Version:\s*17\b", text)`. -/
def mentionsJava17 (text : Str) : Bool :=
  text.tails.any fun (tail : Str) =>
    let label : Str := "Language Version:"
    let rest : Str := (tail.drop label.length).dropWhile CodePoint.isSpace
    tail.startsWith label && rest.startsWith "17" &&
      !(rest.drop 2).head?.any isWordChar

omit [ByteRuntime] in
/-- The version of Python as a check. -/
def pythonCheck (version : ℕ × ℕ × ℕ) : CheckResult :=
  let (major, minor, micro) := version
  { check_id := "environment.python"
    state := if 3 < major ∨ (major = 3 ∧ 13 ≤ minor) then .PASS else .BLOCKED
    reason := "Python " ++ Str.ofInt major ++ "." ++ Str.ofInt minor ++ "." ++ Str.ofInt micro }

/-- The check of a program that has to be on the path. -/
def binaryCheck (root : Path) (check_id name argument : Str) : HarnessM CheckResult := do
  match ← ask (.which name) with
  | none =>
    return { check_id, state := .BLOCKED, reason := name ++ " binary를 찾을 수 없습니다."
             command := [name, argument] }
  | some _ => blockedEnvironmentCheck root check_id [name, argument]

omit [ByteRuntime] in
/-- `gradlew.is_file() and os.access(gradlew, os.X_OK)`. -/
def isExecutableFile (path : Path) : HarnessM Bool := do
  if ← ask (.isFile path) then ask (.isExecutable path) else return false

/-- The result of the toolchain command, blocked if it does not list Java 17. -/
def requireJava17 (check : CheckResult) : CheckResult :=
  if check.state = .PASS ∧ !mentionsJava17 check.reason then
    ⟨check.check_id, .BLOCKED, "Java 17 toolchain을 확인할 수 없습니다: " ++ check.reason, check.command,
      check.exit_code, check.duration_ms⟩
  else check

/-- The check of the Gradle toolchain. -/
def toolchainCheck (root : Path) : HarnessM CheckResult := do
  let gradle_command : List Str := ["./gradlew", "-q", "javaToolchains"]
  if ← isExecutableFile (root.child "gradlew") then
    return requireJava17
      (← blockedEnvironmentCheck root "environment.java17-toolchain" gradle_command)
  else
    return { check_id := "environment.java17-toolchain", state := .BLOCKED
             reason := "실행 가능한 ./gradlew를 찾을 수 없습니다.", command := gradle_command }

/-- `run_prepare_preflight`. -/
def runPreparePreflight (root : Path) : HarnessM (List CheckResult) := do
  let python := pythonCheck (← ask .versionInfo)
  let java ← binaryCheck root "environment.java" "java" "-version"
  let docker ← binaryCheck root "environment.docker" "docker" "info"
  let toolchain ← toolchainCheck root
  return [python, java, docker, toolchain]

/-- `validate_preflight_results`. -/
def validatePreflightResults (raw_checks : RawChecks) : Except Failure (List CheckResult) := do
  let refusal (reason : Str) : Failure := .HarnessViolation .FAIL "environment.preflight" reason
  let candidates ← match raw_checks with
    | .error (.raised error) =>
      if error.type = .TypeError ∨ error.isValueError then
        throw (refusal ("preflight 결과를 해석할 수 없습니다: " ++ error.text))
      else throw (.raised error)
    | .error violation => throw violation
    | .ok candidates => pure candidates
  let checks ← candidates.mapM fun check => (checkResultSchema check "preflight").mapError refusal
  let check_ids := checks.map (·.check_id)
  raiseIf (¬check_ids.Nodup) (refusal "preflight check_id가 중복되었습니다.")
  raiseIf (Str.sortedSet check_ids ≠ Str.sortedSet requiredPreflightCheckIds)
    (refusal ("preflight check_id 집합이 정확하지 않습니다: actual=" ++
      listRepr (Str.sortedSet check_ids) ++ ", required=" ++
      listRepr (Str.sortedSet requiredPreflightCheckIds)))
  return checks

/-- `execute_command`. -/
def executeCommand (root : Path) (check_id : Str) (command : List Str) : HarnessM CheckResult := do
  match ← ask (.run command root true) with
  | .error error =>
    if error.isOSError then
      return unrunnable check_id .FAIL command error (← ask .duration)
    else throw (.raised error)
  | .ok result =>
    let duration_ms ← ask .duration
    let full_output := ByteRuntime.decodeReplace (result.stdout ++ result.stderr)
    let state :=
      if result.returncode = 0 then State.PASS
      else if (check_id = "gradle.test" ∨ check_id.startsWith "oracle.") ∧
          full_output.contains "Could not find a valid Docker environment" then .BLOCKED
      else .FAIL
    return ⟨check_id, state, (outputTail full_output).orElse "출력 없음", command,
      some result.returncode, some duration_ms⟩

/-- `INLINE_CHECK_IDS`. -/
def inlineCheckIds : List Str := ["scope.allowed-paths", "risk.classification", "risk.declaration"]

/-- `policy.risk_checks[risk]`. -/
def riskChecks (policy : RiskPolicy) (risk : Str) : Except Failure (List Str) :=
  match policy.risk_checks.lookup risk with
  | some checks => .ok checks
  | none => .error (.raised ⟨.KeyError, Runtime.repr risk⟩)

omit [ByteRuntime] in
/-- The ids that are required of every plan. -/
def alwaysRequired : List Str := ["harness.unit", "gradle.test"]

/-- `required_check_ids`. -/
def requiredCheckIds (plan : Plan) (classification : RiskClassification)
    (policy : RiskPolicy) : Except Failure (List Str) := do
  let selected ← (Str.sortedSet (plan.declared_risks ++ classification.detected_risks)).mapM
    (riskChecks policy)
  return alwaysRequired ++ Str.sortedSet (selected.flatten.filter fun check_id =>
    check_id ∉ inlineCheckIds ∧ check_id ∉ alwaysRequired)

/-- `HARNESS_TEST_COMMAND`. -/
def harnessTestCommand : List Str :=
  [Runtime.executable, "-m", "unittest", "discover", "-s", "harness/tests", "-p", "test_*.py", "-v"]

omit [ByteRuntime] in
/-- `GRADLE_TEST_COMMAND`. -/
def gradleTestCommand : List Str := ["./gradlew", "clean", "test", "--console", "plain"]

omit [ByteRuntime] in
/-- `DOMAIN_ORACLE_CHECK_IDS`. -/
def domainOracleCheckIds : List Str :=
  ["oracle.architecture", "oracle.api-contract", "oracle.migration-fresh",
    "oracle.migration-upgrade", "oracle.transaction", "oracle.cross-domain-concurrency",
    "oracle.async-isolation", "oracle.multi-instance"]

/-- The results for `gradle.test`: the preflight, and the tests if it passes. -/
def runGradleTest (root : Path) (check_id : Str) : HarnessM (List CheckResult) := do
  let preflight ← runPreparePreflight root
  let environment_checks ← validatePreflightResults (.ok (preflight.map (·.toCandidate)))
  let blocked := environment_checks.filter fun check => check.state ≠ .PASS
  if blocked.isEmpty then
    return environment_checks ++ [← executeCommand root check_id gradleTestCommand]
  else
    return environment_checks ++ [{
      check_id, state := .BLOCKED
      reason := "필수 환경 검사가 통과하지 않았습니다: " ++ listRepr (blocked.map (·.check_id))
      command := gradleTestCommand }]

/-- One pass of the loop of `run_required_checks`. -/
def runRequiredCheck (root : Path) (check_id : Str) : HarnessM (List CheckResult) :=
  if check_id = "harness.unit" then do
    return [← executeCommand root check_id harnessTestCommand]
  else if check_id = "gradle.test" then runGradleTest root check_id
  else if check_id ∈ domainOracleCheckIds then do
    return [← executeCommand root check_id
      [Runtime.executable, "scripts/harness-oracles.py", root.asPosix, check_id]]
  else return [{ check_id, state := .BLOCKED, reason := "구현되지 않은 필수 check입니다." }]

/-- `run_required_checks`. -/
def runRequiredChecks (root : Path) (check_ids : List Str) : HarnessM (List CheckResult) :=
  List.flatten <$> check_ids.mapM (runRequiredCheck root)

section Results

/-- A command that cannot be run raises an `OSError`. -/
def OSErrorsOnly : (op : Op) → op.Answer → Prop
  | .run _ _ _, .error error => error.isOSError = true
  | _, _ => True

/-- Under that assumption the script returns results with the given ids and durations that
are not negative. -/
abbrev Produces (p : HarnessM (List CheckResult)) (check_ids : List Str) : Prop :=
  p.Meets OSErrorsOnly (fun _ => False) fun checks => checks.map (·.check_id) = check_ids ∧
    ∀ check ∈ checks, ∀ ms, check.duration_ms = some ms → 0 ≤ ms

/-- The same for a single result. -/
abbrev ProducesOne (p : HarnessM CheckResult) (check_id : Str) : Prop :=
  p.Meets OSErrorsOnly (fun _ => False) fun check => check.check_id = check_id ∧
    ∀ ms, check.duration_ms = some ms → 0 ≤ ms

omit [ByteRuntime] in
/-- A measured duration is not negative. -/
theorem duration_nonneg {duration : ℕ} (ms : ℤ) (h : some (duration : ℤ) = some ms) : 0 ≤ ms :=
  Option.some.inj h ▸ Int.natCast_nonneg duration

/-- A command whose result becomes a check. -/
def commandCheck (root : Path) (dont_write_bytecode : Bool) (check_id : Str) (command : List Str)
    (unrun : State) (verdict : CompletedProcess → State × Str) : HarnessM CheckResult := do
  match ← ask (.run command root dont_write_bytecode) with
  | .error error =>
    if error.isOSError then
      return unrunnable check_id unrun command error (← ask .duration)
    else throw (.raised error)
  | .ok result =>
    let duration_ms ← ask .duration
    return ⟨check_id, (verdict result).1, (verdict result).2, command, some result.returncode,
      some duration_ms⟩

/-- The verdict of `blocked_environment_check`. -/
def environmentVerdict (result : CompletedProcess) : State × Str :=
  let state := if result.returncode = 0 then State.PASS else .BLOCKED
  (state, (lastOutput result.stdout result.stderr).orElse
    (if state = .PASS then "환경 명령이 성공했습니다." else "환경 명령이 실패했습니다."))

/-- The verdict of `execute_command`. -/
def commandVerdict (check_id : Str) (result : CompletedProcess) : State × Str :=
  let full_output := ByteRuntime.decodeReplace (result.stdout ++ result.stderr)
  (if result.returncode = 0 then State.PASS
    else if (check_id = "gradle.test" ∨ check_id.startsWith "oracle.") ∧
        full_output.contains "Could not find a valid Docker environment" then .BLOCKED
    else .FAIL, (outputTail full_output).orElse "출력 없음")

/-- An environment check is such a check. -/
theorem blockedEnvironmentCheck_eq (root : Path) (check_id : Str) (command : List Str) :
    blockedEnvironmentCheck root check_id command =
      commandCheck root false check_id command .BLOCKED environmentVerdict := by
  unfold blockedEnvironmentCheck commandCheck environmentVerdict
  congr 1
  funext answer
  cases answer with
  | error error => rfl
  | ok result => simp only

/-- A check that runs a command is such a check. -/
theorem executeCommand_eq (root : Path) (check_id : Str) (command : List Str) :
    executeCommand root check_id command =
      commandCheck root true check_id command .FAIL (commandVerdict check_id) := by
  unfold executeCommand commandCheck commandVerdict
  congr 1
  funext answer
  cases answer with
  | error error => rfl
  | ok result => simp only

/-- Only an exit status of zero is a pass. -/
theorem environmentVerdict_pass {result : CompletedProcess}
    (h : (environmentVerdict result).1 = .PASS) : result.returncode = 0 := by
  by_contra hne
  simp only [environmentVerdict, if_neg hne] at h
  cases h

/-- Only an exit status of zero is a pass. -/
theorem commandVerdict_pass {check_id : Str} {result : CompletedProcess}
    (h : (commandVerdict check_id result).1 = .PASS) : result.returncode = 0 := by
  by_contra hne
  simp only [commandVerdict, if_neg hne] at h
  split at h <;> cases h

omit [ByteRuntime] in
/-- Such a check has its id and a duration. -/
theorem commandCheck_produces (root : Path) (dont_write_bytecode : Bool) (check_id : Str)
    (command : List Str) (unrun : State) (verdict : CompletedProcess → State × Str) :
    ProducesOne (commandCheck root dont_write_bytecode check_id command unrun verdict)
      check_id := by
  refine meets_ask fun answer hanswer => ?_
  cases answer with
  | error error =>
    have hos : error.isOSError = true := hanswer
    simp only [hos, if_true]
    exact meets_ask fun duration _ => ⟨rfl, duration_nonneg⟩
  | ok result => exact meets_ask fun duration _ => ⟨rfl, duration_nonneg⟩

/-- An environment check has its id and a duration. -/
theorem blockedEnvironmentCheck_produces (root : Path) (check_id : Str) (command : List Str) :
    ProducesOne (blockedEnvironmentCheck root check_id command) check_id := by
  rw [blockedEnvironmentCheck_eq]
  exact commandCheck_produces _ _ _ _ _ _

/-- A check that runs a command has its id and a duration. -/
theorem executeCommand_produces (root : Path) (check_id : Str) (command : List Str) :
    ProducesOne (executeCommand root check_id command) check_id := by
  rw [executeCommand_eq]
  exact commandCheck_produces _ _ _ _ _ _

/-- A check of a program that has to be on the path has its id. -/
theorem binaryCheck_produces (root : Path) (check_id name argument : Str) :
    ProducesOne (binaryCheck root check_id name argument) check_id := by
  refine meets_ask fun answer _ => ?_
  cases answer with
  | none => exact ⟨rfl, nofun⟩
  | some path => exact blockedEnvironmentCheck_produces _ _ _

/-- The toolchain check has its id and a duration. -/
theorem toolchainCheck_produces (root : Path) :
    ProducesOne (toolchainCheck root) "environment.java17-toolchain" := by
  refine Script.Meets.bind (Q := fun _ => True) ?_ fun executable _ => ?_
  · refine meets_ask fun isFile _ => ?_
    cases isFile with
    | false => trivial
    | true => exact fun _ _ => trivial
  · cases executable with
    | false => exact ⟨rfl, nofun⟩
    | true =>
      refine (blockedEnvironmentCheck_produces _ _ _).bind fun check hcheck => ?_
      refine Script.Meets.pure.mpr ?_
      unfold requireJava17
      split <;> exact hcheck

/-- The preflight produces the required ids. -/
theorem runPreparePreflight_produces (root : Path) :
    Produces (runPreparePreflight root) requiredPreflightCheckIds := by
  refine meets_ask fun version _ => ?_
  refine (binaryCheck_produces _ _ _ _).bind fun java hjava => ?_
  refine (binaryCheck_produces _ _ _ _).bind fun docker hdocker => ?_
  refine (toolchainCheck_produces _).bind fun toolchain htoolchain => ?_
  refine ⟨?_, ?_⟩
  · simp only [List.map_cons, List.map_nil, hjava.1, hdocker.1, htoolchain.1]
    rfl
  · intro check hcheck
    rcases List.mem_cons.mp hcheck with rfl | hcheck
    · exact nofun
    · simp only [List.mem_cons, List.not_mem_nil, or_false] at hcheck
      rcases hcheck with rfl | rfl | rfl
      · exact hjava.2
      · exact hdocker.2
      · exact htoolchain.2

omit [ByteRuntime] in
/-- The ids of the results that are always there. -/
def alwaysProduced : List Str :=
  ("harness.unit" : Str) :: (requiredPreflightCheckIds ++ [("gradle.test" : Str)])

omit [ByteRuntime] in
/-- The ids that are always produced are accepted by the schema. -/
theorem alwaysProduced_valid : ∀ id ∈ alwaysProduced,
    id ≠ [] ∧ Str.strip id = id ∧ ∀ c ∈ id, ¬CodePoint.isControl c = true := by
  have hall : alwaysProduced.all (fun id =>
      id ≠ [] && Str.strip id = id && !id.any CodePoint.isControl) = true := by decide +kernel
  simpa [and_assoc] using hall

omit [ByteRuntime] in
/-- The ids that are always produced are distinct. -/
theorem alwaysProduced_nodup : alwaysProduced.Nodup := by decide +kernel

omit [ByteRuntime] in
/-- The ids of the preflight are among them. -/
theorem requiredPreflightCheckIds_sublist : requiredPreflightCheckIds.Sublist alwaysProduced :=
  (List.sublist_append_left _ _).cons _

omit [ByteRuntime] in
/-- The ids that are always required are among them. -/
theorem alwaysRequired_sublist : alwaysRequired.Sublist alwaysProduced :=
  (List.sublist_append_right _ _).cons_cons _

omit [ByteRuntime] in
/-- The unit tests of the harness are not those of Gradle. -/
theorem harnessUnit_ne : ("harness.unit" : Str) ≠ "gradle.test" :=
  List.ne_of_not_mem_cons
    (List.nodup_cons.mp (List.Nodup.sublist alwaysRequired_sublist alwaysProduced_nodup)).1

/-- The preflight of the harness passes its own validation. -/
theorem validatePreflightResults_eq_ok {checks : List CheckResult}
    (hids : checks.map (·.check_id) = requiredPreflightCheckIds)
    (hdurations : ∀ check ∈ checks, ∀ ms, check.duration_ms = some ms → 0 ≤ ms) :
    validatePreflightResults (.ok (checks.map (·.toCandidate))) = .ok checks := by
  have haccept (refusal : Str → Failure) :
      (checks.map (·.toCandidate)).mapM
        (fun check => (checkResultSchema check "preflight").mapError refusal) = .ok checks := by
    refine Checked.mapM_eq_ok.mpr (List.forall₂_map_left_iff.mpr (List.forall₂_same.mpr ?_))
    intro check hcheck
    obtain ⟨hne, hstrip, hprintable⟩ :=
      alwaysProduced_valid check.check_id
        (List.Sublist.subset requiredPreflightCheckIds_sublist (hids ▸ List.mem_map_of_mem hcheck))
    have hvalid : check.SchemaValid := ⟨hne, hstrip, hprintable, hdurations check hcheck⟩
    exact Checked.mapError_eq_ok.mpr (hvalid.accepted _)
  refine Checked.bind_eq_ok.mpr ⟨_, rfl, Checked.bind_eq_ok.mpr ⟨_, haccept _, ?_⟩⟩
  rw [hids]
  have hnodup := List.Nodup.sublist requiredPreflightCheckIds_sublist alwaysProduced_nodup
  refine Checked.raiseIf_bind_eq_ok.mpr ⟨not_not.mpr hnodup, ?_⟩
  exact Checked.raiseIf_bind_eq_ok.mpr ⟨not_not.mpr rfl, rfl⟩

/-- The Gradle tests produce the ids of the preflight and their own. -/
theorem runGradleTest_produces (root : Path) (check_id : Str) :
    Produces (runGradleTest root check_id) (requiredPreflightCheckIds ++ [check_id]) := by
  refine (runPreparePreflight_produces root).bind fun preflight hpreflight => ?_
  obtain ⟨hids, hdurations⟩ := hpreflight
  refine Script.Meets.bind (Q := fun checks => checks = preflight)
    (Script.Meets.ofExcept (fun e he => ?_) fun checks hchecks => ?_) ?_
  · rw [validatePreflightResults_eq_ok hids hdurations] at he
    exact nomatch he
  · rw [validatePreflightResults_eq_ok hids hdurations] at hchecks
    exact (Except.ok.inj hchecks).symm
  · rintro checks rfl
    refine Script.Meets.ite ?_ ?_
    · refine (executeCommand_produces _ _ _).bind fun tests htests => ⟨?_, ?_⟩
      · rw [List.map_append, hids, List.map_singleton, htests.1]
      · exact List.forall_mem_append.mpr ⟨hdurations, List.forall_mem_singleton.mpr htests.2⟩
    · refine ⟨?_, List.forall_mem_append.mpr ⟨hdurations, List.forall_mem_singleton.mpr nofun⟩⟩
      rw [List.map_append, hids, List.map_singleton]

/-- The ids of the results for a requested id. -/
def producedIds (check_id : Str) : List Str :=
  if check_id = "gradle.test" then requiredPreflightCheckIds ++ [check_id] else [check_id]

omit [ByteRuntime] in
/-- A single result is a list of one. -/
theorem ProducesOne.singleton {p : HarnessM CheckResult} {check_id : Str}
    (h : ProducesOne p check_id) : Produces (do return [← p]) [check_id] :=
  h.bind fun _ hcheck =>
    ⟨congrArg (fun id => [id]) hcheck.1, List.forall_mem_singleton.mpr hcheck.2⟩

/-- A required check produces its ids. -/
theorem runRequiredCheck_produces (root : Path) (check_id : Str) :
    Produces (runRequiredCheck root check_id) (producedIds check_id) := by
  unfold runRequiredCheck producedIds
  by_cases hunit : check_id = "harness.unit"
  · rw [if_pos hunit, if_neg (hunit ▸ harnessUnit_ne)]
    exact (executeCommand_produces _ _ _).singleton
  · rw [if_neg hunit]
    by_cases hgradle : check_id = "gradle.test"
    · rw [if_pos hgradle, if_pos hgradle]
      exact runGradleTest_produces _ _
    · rw [if_neg hgradle, if_neg hgradle]
      split
      · exact (executeCommand_produces _ _ _).singleton
      · exact ⟨rfl, List.forall_mem_singleton.mpr nofun⟩

/-- The built-in runner produces the ids of all required checks. -/
theorem runRequiredChecks_produces (root : Path) (check_ids : List Str) :
    Produces (runRequiredChecks root check_ids) (check_ids.flatMap producedIds) := by
  refine (Script.Meets.mapM (runRequiredCheck_produces root)).bind fun found hfound => ?_
  induction hfound with
  | nil => exact ⟨rfl, by simp⟩
  | cons hcheck _ ih =>
    refine ⟨?_, ?_⟩
    · simp only [List.flatten_cons, List.map_append, hcheck.1,
        List.flatMap_cons]
      exact congrArg _ ih.1
    · exact List.forall_mem_append.mpr ⟨hcheck.2, ih.2⟩

/-- The checks of a known risk. -/
theorem riskChecks_eq_ok {policy : RiskPolicy} (hpolicy : policy.WellFormed) {risk : Str}
    (hrisk : risk ∈ policy.known_risks) :
    riskChecks policy risk = .ok ((policy.risk_checks.lookup risk).getD []) ∧
      ∀ check_id, check_id ∈ (policy.risk_checks.lookup risk).getD [] ↔
        ∃ entry ∈ policy.risk_checks, entry.1 = risk ∧ check_id ∈ entry.2 := by
  obtain ⟨⟨_, checks⟩, hentry, rfl⟩ := List.mem_map.mp (hpolicy.checks_known risk hrisk)
  cases hlookup : policy.risk_checks.lookup _ with
  | none =>
    exact absurd (List.lookup_eq_none_iff.mp hlookup _ hentry) (by simp)
  | some found =>
    obtain ⟨first, second, hsplit, -⟩ := List.lookup_eq_some_iff.mp hlookup
    have hfound : (_, found) ∈ policy.risk_checks :=
      hsplit ▸ List.mem_append_right _ List.mem_cons_self
    refine ⟨by rw [riskChecks, hlookup]; rfl,
      fun check_id => ⟨fun hid => ⟨_, hfound, rfl, hid⟩, ?_⟩⟩
    rintro ⟨entry, hmem, hkey, hid⟩
    obtain rfl := List.inj_on_of_nodup_map hpolicy.checks_nodup hmem hfound hkey
    exact hid

/-- The Gradle tests are always required. -/
theorem gradleTest_required {plan : Plan} {classification : RiskClassification}
    {policy : RiskPolicy} {ids : List Str}
    (h : requiredCheckIds plan classification policy = .ok ids) :
    ("gradle.test" : Str) ∈ ids := by
  obtain ⟨selected, -, hids⟩ := Checked.bind_eq_ok.mp h
  obtain rfl := Checked.pure_eq_ok.mp hids
  exact List.mem_append_left _ (List.mem_cons_of_mem _ List.mem_cons_self)

/-- The required ids: the two fixed ones, then those of the declared and detected risks. -/
theorem requiredCheckIds_eq_ok {policy : RiskPolicy} (hpolicy : policy.WellFormed) {plan : Plan}
    {classification : RiskClassification}
    (hrisks : ∀ risk ∈ plan.declared_risks ++ classification.detected_risks,
      risk ∈ policy.known_risks) :
    ∃ rest, requiredCheckIds plan classification policy =
        .ok (alwaysRequired ++ rest) ∧ rest.Nodup ∧
      ∀ check_id, check_id ∈ rest ↔ (∃ entry ∈ policy.risk_checks,
          (entry.1 ∈ plan.declared_risks ∨ entry.1 ∈ classification.detected_risks) ∧
          check_id ∈ entry.2) ∧
        check_id ∉ inlineCheckIds ∧ check_id ∉ alwaysRequired := by
  have hselected : ∀ risk ∈ Str.sortedSet (plan.declared_risks ++ classification.detected_risks),
      risk ∈ policy.known_risks := fun risk hrisk => hrisks risk (Str.mem_sortedSet.mp hrisk)
  refine ⟨_, Checked.bind_eq_ok.mpr ⟨_, Checked.mapM_eq_ok_map fun risk hrisk =>
    (riskChecks_eq_ok hpolicy (hselected risk hrisk)).1, rfl⟩, Str.nodup_sortedSet _, ?_⟩
  intro check_id
  rw [Str.mem_sortedSet, List.mem_filter, decide_eq_true_eq, ← List.flatMap_def, List.mem_flatMap]
  refine and_congr_left fun _ => ⟨?_, ?_⟩
  · rintro ⟨risk, hrisk, hid⟩
    obtain ⟨entry, hentry, rfl, hmem⟩ :=
      ((riskChecks_eq_ok hpolicy (hselected risk hrisk)).2 check_id).mp hid
    exact ⟨entry, hentry, List.mem_append.mp (Str.mem_sortedSet.mp hrisk), hmem⟩
  · rintro ⟨entry, hentry, hrisk, hmem⟩
    have hsorted := Str.mem_sortedSet.mpr (List.mem_append.mpr hrisk)
    exact ⟨entry.1, hsorted,
      ((riskChecks_eq_ok hpolicy (hselected _ hsorted)).2 check_id).mpr ⟨entry, hentry, rfl, hmem⟩⟩

omit [ByteRuntime] in
/-- The Gradle tests are required once, so the ids of the preflight are produced once. -/
theorem flatMap_producedIds {rest : List Str} (h : ∀ id ∈ rest, id ∉ alwaysRequired) :
    (alwaysRequired ++ rest).flatMap producedIds = alwaysProduced ++ rest := by
  rw [List.flatMap_append]
  have hfirst : alwaysRequired.flatMap producedIds = alwaysProduced := by
    rw [alwaysRequired, List.flatMap_cons, List.flatMap_singleton, producedIds, producedIds,
      if_neg harnessUnit_ne, if_pos rfl]
    rfl
  refine congrArg₂ _ hfirst ?_
  induction rest with
  | nil => rfl
  | cons id rest ih =>
    obtain ⟨hid, hrest⟩ := List.forall_mem_cons.mp h
    have hgradle : id ≠ "gradle.test" := by
      rintro rfl
      exact hid (List.mem_cons_of_mem _ List.mem_cons_self)
    rw [List.flatMap_cons, ih hrest, producedIds, if_neg hgradle, List.singleton_append]

omit [ByteRuntime] in
/-- What is always produced is always required or of the preflight. -/
theorem mem_alwaysProduced {id : Str} :
    id ∈ alwaysProduced ↔ id ∈ alwaysRequired ∨ id ∈ requiredPreflightCheckIds := by
  simp only [alwaysProduced, alwaysRequired, List.mem_append, List.mem_cons, List.not_mem_nil,
    or_false]
  rw [or_comm (a := id ∈ requiredPreflightCheckIds), or_assoc]

omit [ByteRuntime] in
/-- The results are complete if no other id is one of the preflight or cannot be printed. -/
theorem completeResults_iff {checks : List CheckResult} {rest : List Str}
    (hids : checks.map (·.check_id) = (alwaysRequired ++ rest).flatMap producedIds)
    (hdurations : ∀ check ∈ checks, ∀ ms, check.duration_ms = some ms → 0 ≤ ms)
    (hnodup : rest.Nodup) (hnew : ∀ id ∈ rest, id ∉ alwaysRequired)
    (hvalid : ∀ id ∈ rest, id ≠ [] ∧ Str.strip id = id) :
    CompleteResults checks (alwaysRequired ++ rest) ↔
      ∀ id ∈ rest, id ∉ requiredPreflightCheckIds ∧ ∀ c ∈ id, ¬CodePoint.isControl c = true := by
  rw [flatMap_producedIds hnew] at hids
  constructor
  · intro h id hid
    have hchecked : id ∈ checks.map (·.check_id) := hids ▸ List.mem_append_right _ hid
    obtain ⟨check, hcheck, rfl⟩ := List.mem_map.mp hchecked
    refine ⟨fun hpreflight => ?_, (h.schema_valid check hcheck).id_printable⟩
    have hdisjoint := (List.nodup_append.mp (hids ▸ h.ids_nodup)).2.2
    exact hdisjoint _ (mem_alwaysProduced.2 (.inr hpreflight)) _ hid rfl
  · intro h
    refine ⟨fun check hcheck => ?_, hids ▸ ?_, fun id => ?_⟩
    · have hid : check.check_id ∈ alwaysProduced ++ rest := hids ▸ List.mem_map_of_mem hcheck
      rcases List.mem_append.mp hid with hmem | hmem
      · obtain ⟨hne, hstrip, hprintable⟩ := alwaysProduced_valid _ hmem
        exact ⟨hne, hstrip, hprintable, hdurations check hcheck⟩
      · obtain ⟨hne, hstrip⟩ := hvalid _ hmem
        exact ⟨hne, hstrip, (h _ hmem).2, hdurations check hcheck⟩
    · refine List.nodup_append.mpr ⟨alwaysProduced_nodup, hnodup, ?_⟩
      rintro id hfirst _ hsecond rfl
      rcases mem_alwaysProduced.1 hfirst with hrequired | hpreflight
      · exact hnew id hsecond hrequired
      · exact (h id hsecond).1 hpreflight
    · have hgradle : ("gradle.test" : Str) ∈ alwaysRequired ++ rest :=
        List.mem_append_left _ (List.mem_cons_of_mem _ List.mem_cons_self)
      rw [hids, List.mem_append, mem_alwaysProduced, List.mem_append]
      simp only [hgradle, true_and]
      exact or_right_comm

/-- The results of the built-in runner are accepted if no check of a declared or detected
risk has the id of a preflight check or a control character in its id. -/
theorem runRequiredChecks_accepted_iff {policy : RiskPolicy} (hpolicy : policy.WellFormed)
    {plan : Plan} {classification : RiskClassification}
    (hrisks : ∀ risk ∈ plan.declared_risks ++ classification.detected_risks,
      risk ∈ policy.known_risks) (root : Path) :
    ∃ ids, requiredCheckIds plan classification policy = .ok ids ∧
      ∀ (steps : Trace) (r : Except Failure (List CheckResult)),
        (runRequiredChecks root ids).replay steps = some r →
        (∀ step ∈ steps, OSErrorsOnly step.op step.answer) →
        ∃ checks, r = .ok checks ∧
          ((∃ accepted, validateCheckRunnerResults (.ok (checks.map (·.toCandidate))) ids =
              .ok (accepted, none)) ↔
            ∀ entry ∈ policy.risk_checks,
              entry.1 ∈ plan.declared_risks ∨ entry.1 ∈ classification.detected_risks →
              ∀ check_id ∈ entry.2, check_id ∉ requiredPreflightCheckIds ∧
                ∀ c ∈ check_id, ¬CodePoint.isControl c = true) := by
  obtain ⟨rest, hids, hnodup, hrest⟩ := requiredCheckIds_eq_ok hpolicy hrisks
  refine ⟨_, hids, fun steps r hrun hos => ?_⟩
  obtain ⟨herror, hok⟩ := (runRequiredChecks_produces root _).replay hos hrun
  rcases r with e | checks
  · exact absurd rfl (herror e)
  obtain ⟨hproduced, hdurations⟩ := hok checks rfl
  refine ⟨checks, rfl, ?_⟩
  have hcomplete := completeResults_iff hproduced hdurations hnodup
    (fun id hid => ((hrest id).mp hid).2.2) fun id hid => by
      obtain ⟨⟨entry, hentry, -, hmem⟩, -⟩ := (hrest id).mp hid
      exact hpolicy.check_ids entry hentry id hmem
  have haccepted : (∃ accepted, validateCheckRunnerResults (.ok (checks.map (·.toCandidate)))
      (alwaysRequired ++ rest) = .ok (accepted, none)) ↔
      CompleteResults checks (alwaysRequired ++ rest) := by
    refine ⟨fun ⟨accepted, h⟩ => ?_, fun h =>
      ⟨checks, validateCheckRunnerResults_eq_none.mpr ⟨rfl, h⟩⟩⟩
    obtain ⟨hsame, h⟩ := validateCheckRunnerResults_eq_none.mp h
    rwa [List.map_injective_iff.mpr CheckResult.toCandidate_injective (Except.ok.inj hsame)]
  rw [haccepted, hcomplete]
  have hharmless : ∀ id, id ∈ inlineCheckIds ∨ id ∈ alwaysRequired →
      id ∉ requiredPreflightCheckIds ∧ ∀ c ∈ id, ¬CodePoint.isControl c = true := by
    have hall : (inlineCheckIds ++ alwaysRequired).all (fun id =>
        id ∉ requiredPreflightCheckIds && !id.any CodePoint.isControl) = true := by decide +kernel
    intro id hid
    have hmem := List.all_eq_true.mp hall id (List.mem_append.mpr hid)
    simpa using hmem
  constructor
  · intro h entry hentry hrisk id hid
    by_cases hknown : id ∈ inlineCheckIds ∨ id ∈ alwaysRequired
    · exact hharmless id hknown
    · rw [not_or] at hknown
      exact h id ((hrest id).mpr ⟨⟨entry, hentry, hrisk, hid⟩, hknown⟩)
  · intro h id hid
    obtain ⟨⟨entry, hentry, hrisk, hmem⟩, -⟩ := (hrest id).mp hid
    exact h entry hentry hrisk id hmem

omit [ByteRuntime] in
/-- The declared and the detected risks of what was accepted are known. -/
theorem known_of_accepted {policy : RiskPolicy} (hpolicy : policy.WellFormed) {plan : Plan}
    (hplan : plan.WellFormed policy.known_risks) (changed_paths : List Str) (plan_path : Str) :
    ∀ risk ∈ plan.declared_risks ++ (classifyRisks changed_paths policy plan_path).detected_risks,
      risk ∈ policy.known_risks := by
  refine List.forall_mem_append.mpr ⟨hplan.risks_known, fun risk hrisk => ?_⟩
  obtain ⟨_, -, -, rule, hrule, -, hmem⟩ := (mem_classifyRisks_detected hpolicy).mp hrisk
  exact hpolicy.risks_known rule hrule risk hmem

variable {rawPolicy rawPlan : Bytes} {relative_path : Str} {policy : RiskPolicy} {plan : Plan}

/-- **The required checks are complete.** For a policy and a plan that were accepted the
selection fails on no key. It starts with the two fixed ids, repeats none, and holds
besides exactly what the policy lists for a declared or detected risk, without the inline
ids; so a check of a detected risk is there whatever the plan declares. -/
theorem required_checks_complete (hpolicy : parseRiskPolicy rawPolicy = .ok policy)
    (hplan : parsePlan rawPlan relative_path policy.known_risks = .ok plan)
    (changed_paths : List Str) :
    let classification := classifyRisks changed_paths policy plan.relative_path
    ∃ rest, requiredCheckIds plan classification policy = .ok (alwaysRequired ++ rest) ∧
      (alwaysRequired ++ rest).Nodup ∧
      (∀ check_id, check_id ∈ alwaysRequired ++ rest ↔ check_id ∈ alwaysRequired ∨
        (∃ entry ∈ policy.risk_checks,
          (entry.1 ∈ plan.declared_risks ∨ entry.1 ∈ classification.detected_risks) ∧
          check_id ∈ entry.2) ∧ check_id ∉ inlineCheckIds) ∧
      ∀ risk ∈ classification.detected_risks, ∃ checks, (risk, checks) ∈ policy.risk_checks ∧
        ∀ check_id ∈ checks, check_id ∉ inlineCheckIds → check_id ∈ alwaysRequired ++ rest := by
  intro classification
  have hpolicy' := parseRiskPolicy_wellFormed hpolicy
  have hknown := known_of_accepted hpolicy' (parsePlan_wellFormed hplan).1 changed_paths
    plan.relative_path
  obtain ⟨rest, hids, hnodup, hrest⟩ := requiredCheckIds_eq_ok hpolicy' hknown
  have hmem : ∀ check_id, check_id ∈ alwaysRequired ++ rest ↔ check_id ∈ alwaysRequired ∨
      (∃ entry ∈ policy.risk_checks,
        (entry.1 ∈ plan.declared_risks ∨ entry.1 ∈ classification.detected_risks) ∧
        check_id ∈ entry.2) ∧ check_id ∉ inlineCheckIds := by
    intro check_id
    rw [List.mem_append, hrest]
    by_cases halways : check_id ∈ alwaysRequired
    · exact iff_of_true (.inl halways) (.inl halways)
    · simp only [halways, not_false_eq_true, and_true, false_or]
      exact Iff.rfl
  refine ⟨rest, hids, ?_, hmem, fun risk hrisk => ?_⟩
  · refine List.nodup_append.mpr
      ⟨List.Nodup.sublist alwaysRequired_sublist alwaysProduced_nodup, hnodup, ?_⟩
    rintro check_id hfirst _ hsecond rfl
    exact ((hrest check_id).mp hsecond).2.2 hfirst
  · have hkey := hpolicy'.checks_known risk (hknown risk (List.mem_append_right _ hrisk))
    obtain ⟨⟨_, checks⟩, hentry, rfl⟩ := List.mem_map.mp hkey
    refine ⟨checks, hentry, fun check_id hcheck hinline => (hmem check_id).mpr ?_⟩
    exact .inr ⟨⟨_, hentry, .inr hrisk, hcheck⟩, hinline⟩

/-- **When the built-in runner satisfies its validator.** For a policy and a plan that were
accepted and any outcome of the commands, the runner returns, and its results are accepted
if and only if no check of a declared or detected risk has the id of a preflight check or
a control character in its id. -/
theorem builtin_runner_accepted_iff (hpolicy : parseRiskPolicy rawPolicy = .ok policy)
    (hplan : parsePlan rawPlan relative_path policy.known_risks = .ok plan)
    (changed_paths : List Str) (plan_path : Str) (root : Path) :
    let classification := classifyRisks changed_paths policy plan_path
    ∃ ids, requiredCheckIds plan classification policy = .ok ids ∧
      ∀ (steps : Trace) (r : Except Failure (List CheckResult)),
        (runRequiredChecks root ids).replay steps = some r →
        (∀ step ∈ steps, OSErrorsOnly step.op step.answer) →
        ∃ checks, r = .ok checks ∧
          ((∃ accepted, validateCheckRunnerResults (.ok (checks.map (·.toCandidate))) ids =
              .ok (accepted, none)) ↔
            ∀ entry ∈ policy.risk_checks,
              entry.1 ∈ plan.declared_risks ∨ entry.1 ∈ classification.detected_risks →
              ∀ check_id ∈ entry.2, check_id ∉ requiredPreflightCheckIds ∧
                ∀ c ∈ check_id, ¬CodePoint.isControl c = true) :=
  runRequiredChecks_accepted_iff (parseRiskPolicy_wellFormed hpolicy)
    (known_of_accepted (parseRiskPolicy_wellFormed hpolicy) (parsePlan_wellFormed hplan).1
      changed_paths plan_path) root

end Results

end Runner

namespace Sample

/-- The directory of the repository. -/
def root : Path := .ofStr "/repo"

/-- A world in which every command exits with zero. -/
def calm (_ : Unit) (op : Op) : op.Answer × Unit :=
  (match op with
    | .run _ _ _ => .ok ⟨0, [], []⟩
    | .duration => 5
    | .which name => some ("/usr/bin/" ++ name)
    | .isFile _ | .isExecutable _ => true
    | .versionInfo => (3, 13, 0)
    | .checkRunner _ _ | .preflight _ => .error (.raised ⟨.OSError, []⟩)
    | .resolve _ _ | .lstat _ | .readlink _ | .readBytes _ | .mkdir _ | .unlink _ _
    | .createTemporary _ | .write _ _ | .flush _ | .fsync _ | .close _ | .replace _ _ =>
      .error ⟨.OSError, []⟩, ())

/-- The sample raises nothing. -/
theorem calm_osErrorsOnly {α : Type} (p : HarnessM α) :
    ∀ step ∈ (p.exec calm ()).1, OSErrorsOnly step.op step.answer :=
  Script.exec_answers (fun _ op => by cases op <;> trivial) p ()

/-- The text of the sample policy is read as the policy. -/
theorem parseRiskPolicy_preflight_eq :
    parseRiskPolicy rawPreflightPolicy = .ok (policyWith "environment.java") := by decide +kernel

/-- The check of the guide is none of the harness's own, and it can be printed. -/
theorem docsLinks_free : ("docs.links" : Str) ∉ inlineCheckIds ++ requiredPreflightCheckIds ∧
    ("docs.links" : Str).any CodePoint.isControl = false := by decide +kernel

end Sample

/-- The check of the guide is required of a plan that changes it. -/
theorem required_checks_complete_guide :
    ∃ ids, requiredCheckIds Sample.plan
        (classifyRisks ["docs/guide/new.md"] Sample.policy Sample.plan.relative_path)
        Sample.policy = .ok ids ∧ ids.Nodup ∧ ("docs.links" : Str) ∈ ids := by
  obtain ⟨rest, hids, hnodup, hmem, -⟩ := required_checks_complete Sample.parseRiskPolicy_eq
    Sample.parsePlan_eq ["docs/guide/new.md"]
  refine ⟨_, hids, hnodup, (hmem _).mpr (.inr ⟨⟨_, List.mem_singleton_self _, ?_⟩, ?_⟩)⟩
  · exact ⟨.inl (List.mem_singleton_self _), List.mem_singleton_self _⟩
  · exact fun hinline => Sample.docsLinks_free.1 (List.mem_append_left _ hinline)

/-- For the sample policy the built-in runner satisfies its validator. -/
theorem builtin_runner_accepted_iff_docs :
    ∃ ids checks accepted, requiredCheckIds Sample.plan
        (classifyRisks ["docs/guide/new.md"] Sample.policy Sample.plan.relative_path)
        Sample.policy = .ok ids ∧
      ((runRequiredChecks Sample.root ids).exec Sample.calm ()).2.1 = .ok checks ∧
      validateCheckRunnerResults (.ok (checks.map (·.toCandidate))) ids = .ok (accepted, none) := by
  obtain ⟨ids, hids, hruns⟩ := builtin_runner_accepted_iff Sample.parseRiskPolicy_eq
    Sample.parsePlan_eq ["docs/guide/new.md"] Sample.plan.relative_path Sample.root
  obtain ⟨checks, hchecks, hiff⟩ := hruns _ _ (Script.replay_exec Sample.calm _ ())
    (Sample.calm_osErrorsOnly _)
  obtain ⟨accepted, haccepted⟩ := hiff.mpr fun entry hentry _ => by
    obtain rfl := List.mem_singleton.mp hentry
    refine List.forall_mem_singleton.mpr ⟨fun hpreflight => ?_, ?_⟩
    · exact Sample.docsLinks_free.1 (List.mem_append_right _ hpreflight)
    · simpa using Sample.docsLinks_free.2
  exact ⟨ids, checks, accepted, hids, hchecks, haccepted⟩

/-- Not for every policy: one may ask for a check that the preflight reports too. -/
theorem not_builtin_runner_accepted :
    ¬∀ (rawPolicy rawPlan : Bytes) (relative_path : Str) (policy : RiskPolicy) (plan : Plan)
      (changed_paths : List Str) (root : Path) (ids : List Str) (steps : Trace)
      (checks : List CheckResult), parseRiskPolicy rawPolicy = .ok policy →
      parsePlan rawPlan relative_path policy.known_risks = .ok plan →
      requiredCheckIds plan (classifyRisks changed_paths policy plan.relative_path) policy =
        .ok ids →
      (runRequiredChecks root ids).replay steps = some (.ok checks) →
      (∀ step ∈ steps, OSErrorsOnly step.op step.answer) →
      ∃ accepted, validateCheckRunnerResults (.ok (checks.map (·.toCandidate))) ids =
        .ok (accepted, none) := by
  intro hclaim
  have hpolicy := parseRiskPolicy_wellFormed Sample.parseRiskPolicy_preflight_eq
  have hplan := (parsePlan_wellFormed Sample.parsePlan_eq).1
  obtain ⟨ids, hids, hruns⟩ := runRequiredChecks_accepted_iff hpolicy
    (known_of_accepted hpolicy hplan ["docs/guide/new.md"] Sample.plan.relative_path) Sample.root
  have hreplay := Script.replay_exec Sample.calm (runRequiredChecks Sample.root ids) ()
  obtain ⟨checks, hchecks, hiff⟩ := hruns _ _ hreplay (Sample.calm_osErrorsOnly _)
  rw [hchecks] at hreplay
  have haccepted := hclaim _ _ _ _ _ _ _ ids _ checks Sample.parseRiskPolicy_preflight_eq
    Sample.parsePlan_eq hids hreplay (Sample.calm_osErrorsOnly _)
  have hgood := hiff.mp haccepted _ List.mem_cons_self (.inl List.mem_cons_self) _
    List.mem_cons_self
  exact hgood.1 (List.mem_cons_of_mem _ List.mem_cons_self)

end CoffeeOrder.Harness
