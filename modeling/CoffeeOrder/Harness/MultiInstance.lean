import CoffeeOrder.Harness.Migrations
import CoffeeOrder.Harness.RequiredChecks
import CoffeeOrder.Kit.Segments
import CoffeeOrder.Python.JsonText

/-!
# The multi-instance oracle without Docker

`harness-oracles.py` runs the application behind a gateway with `docker compose`. Without
Docker its first command and its cleanup fail, and the harness has to tell from their
output that the check is blocked.
-/

namespace CoffeeOrder.Harness

open Kit Python

/-- How `subprocess.run` with a timeout ends. -/
inductive Outcome
  | completed (result : CompletedProcess)
  | timeoutExpired (stdout stderr : Bytes)
  | raised (error : Exc)

/-- What the oracle asks for. -/
inductive OracleOp
  | resolve (path : Path)
  | isFile (path : Path)
  /-- `os.access(path, os.X_OK)`. -/
  | isExecutable (path : Path)
  | getpid
  /-- `int(time.time())`. -/
  | time
  /-- `_free_port`. -/
  | freePort
  | run (command : List Str) (cwd : Path) (environment : List (Str × Str)) (timeout_seconds : ℕ)
  /-- What is written to the standard output. -/
  | print (text : Str)
  deriving DecidableEq

/-- The answer to a question of the oracle. -/
abbrev OracleOp.Answer : OracleOp → Type
  | .resolve _ => Except Exc Path
  | .isFile _ | .isExecutable _ => Bool
  | .getpid | .time => ℕ
  | .freePort => Except Exc ℕ
  | .run _ _ _ _ => Outcome
  | .print _ => Except Exc Unit

/-- A function of the oracle. -/
abbrev OracleM := Script OracleError OracleOp.Answer

/-- The steps of a run of the oracle. -/
abbrev OracleTrace := List (Step OracleOp.Answer)

/-- Ask, and look at the answer whatever it is. -/
def askOracle {ε : Type} (op : OracleOp) : Script ε OracleOp.Answer op.Answer := .ask op .done

/-- `print(text, end="")`. -/
def printText (text : Str) : OracleM Unit := do
  (← askOracle (.print text)).mapError OracleError.raised

/-- `_require_file`. -/
def requireFile (root : Path) (relative_path : Str) : OracleM Path := do
  let path := root.join (.ofStr relative_path)
  if !(← askOracle (.isFile path)) then
    throw (.OracleFailure ("필수 oracle 파일이 없습니다: " ++ relative_path))
  return path

/-- `_free_port`. -/
def freePort : OracleM Str := do
  return Str.ofInt (← (← askOracle .freePort).mapError OracleError.raised)

section Oracle

variable [ByteRuntime]

/-- The exit code and the text that `_run_command` makes of an outcome. -/
def Outcome.reading : Outcome → Except OracleError (ℤ × Str)
  | .completed result =>
    .ok (result.returncode, ByteRuntime.decodeReplace (result.stdout ++ result.stderr))
  | .timeoutExpired stdout stderr =>
    .ok (124, ByteRuntime.decodeReplace (stdout ++ stderr) ++ "\ncommand timeout")
  | .raised error =>
    if error.type = .FileNotFoundError then
      .ok (127, "Could not find a valid Docker environment or command: " ++ error.text)
    else .error (.raised error)

/-- `_run_command`. -/
def runCommand (root : Path) (command : List Str) (environment : List (Str × Str))
    (timeout_seconds : ℕ) : OracleM (ℤ × Str) := do
  (← askOracle (.run command root environment timeout_seconds)).reading

/-- Run a command and print its output. -/
def runAndPrint (root : Path) (command : List Str) (environment : List (Str × Str))
    (timeout_seconds : ℕ := 900) : OracleM ℤ := do
  let (exit_code, output) ← runCommand root command environment timeout_seconds
  printText output
  return exit_code

omit [ByteRuntime] in
/-- `(*compose, *arguments)`. -/
def composeCommand (project : Str) (arguments : List Str) : List Str :=
  "docker" :: "compose" :: "-p" :: project :: arguments

/-- The commands between `try` and `finally` of `run_multi_instance_oracle`. -/
def composeAndSmoke (root : Path) (project : Str) (environment : List (Str × Str)) :
    OracleM ℤ := do
  let exit_code ← runAndPrint root (composeCommand project ["config", "--quiet"]) environment
  if exit_code ≠ 0 then
    return exit_code
  let exit_code ←
    runAndPrint root (composeCommand project ["up", "-d", "--build", "--wait"]) environment 1200
  if exit_code ≠ 0 then
    return exit_code
  let exit_code ← runAndPrint root ["sh", "scripts/multi-instance-smoke.sh"] environment 300
  if exit_code ≠ 0 then
    return exit_code
  printText "ORACLE PASS: oracle.multi-instance\n"
  return 0

omit [ByteRuntime] in
/-- The message of a failed cleanup. -/
def cleanupFailure (exit_code : ℤ) : Str :=
  "multi-instance cleanup 실패(exit=" ++ Str.ofInt exit_code ++ ")"

/-- What `run_multi_instance_oracle` does in any case. -/
def composeDown (root : Path) (project : Str) (environment : List (Str × Str)) :
    OracleM Unit := do
  let exit_code ←
    runAndPrint root (composeCommand project ["down", "-v", "--remove-orphans"]) environment 180
  if exit_code ≠ 0 then
    throw (.OracleFailure (cleanupFailure exit_code))

/-- `run_multi_instance_oracle`. -/
def runMultiInstanceOracle (root : Path) : OracleM ℤ := do
  let _ ← requireFile root "compose.yaml"
  let _ ← requireFile root "nginx/default.conf"
  let smoke ← requireFile root "scripts/multi-instance-smoke.sh"
  if !(← askOracle (.isExecutable smoke)) then
    throw (.OracleFailure "multi-instance smoke script에 실행 권한이 없습니다.")
  let pid ← askOracle .getpid
  let time ← askOracle .time
  let project := "coffee-oracle-" ++ Str.ofInt pid ++ "-" ++ Str.ofInt time
  let gateway_port ← freePort
  let db_port ← freePort
  let redis_port ← freePort
  let environment : List (Str × Str) :=
    [("COMPOSE_PROJECT_NAME", project), ("GATEWAY_PORT", gateway_port), ("DB_PORT", db_port),
      ("REDIS_PORT", redis_port), ("GATEWAY_URL", "http://127.0.0.1:" ++ gateway_port)]
  (composeAndSmoke root project environment).withFinally (composeDown root project environment)

/-- `main` for this oracle: the exit code, and what is written to the standard error. Other
exceptions leave it. -/
def oracleMain (root : Path) : Script Exc OracleOp.Answer (ℤ × Str) := do
  let oracle : OracleM ℤ := do
    let resolved ← (← askOracle (.resolve root)).mapError OracleError.raised
    runMultiInstanceOracle resolved
  match ← oracle.attempt with
  | .ok exit_code => return (exit_code, [])
  | .error (.OracleFailure message) => return (1, "ORACLE FAIL: " ++ message ++ "\n")
  | .error (.raised error) =>
    if error.isOSError then return (1, "ORACLE FAIL: " ++ error.text ++ "\n") else throw error

omit [ByteRuntime] in
/-- What a run has printed. -/
def printed (steps : OracleTrace) : Str :=
  steps.flatMap fun step => match step with
    | ⟨.print text, _⟩ => text
    | _ => []

/-- The texts of the commands of a run. -/
def commandTexts (steps : OracleTrace) : Str :=
  steps.flatMap fun step => match step with
    | ⟨.run _ _ _ _, answer⟩ => match answer.reading with
      | .ok (_, text) => text
      | .error _ => []
    | _ => []

/-- The process of the oracle: its exit status, and its output in UTF-8. -/
def OracleProcess (root : Path) (steps : OracleTrace) (result : CompletedProcess) : Prop :=
  ∃ exit_code stderr, (oracleMain root).replay steps = some (.ok (exit_code, stderr)) ∧
    result.returncode = exit_code % 256 ∧
    Bytes.encode false (printed steps) = .ok result.stdout ∧
    Bytes.encode false stderr = .ok result.stderr

/-- Docker is not available to the oracle: its `docker` commands fail, and nothing else does. -/
def NoCompose : (op : OracleOp) → op.Answer → Prop
  | .run command _ _ _, answer =>
    command.head? = some ("docker" : Str) →
      ∃ exit_code text, answer.reading = .ok (exit_code, text) ∧ exit_code ≠ 0
  | .resolve _, answer => ∃ path, answer = .ok path
  | .isFile _, answer | .isExecutable _, answer => answer = true
  | .freePort, answer => ∃ port, answer = .ok port
  | .print _, answer => answer = .ok ()
  | .getpid, _ | .time, _ => True

section Failing

variable {pre : OracleTrace}

/-- What was printed is what the commands printed. -/
def PrintsCommands (steps : OracleTrace) : Prop := printed steps = commandTexts steps

/-- A `docker` command fails, and its output is printed. -/
theorem runAndPrint_yields {root : Path} {command : List Str} {environment : List (Str × Str)}
    {timeout_seconds : ℕ} (hdocker : command.head? = some ("docker" : Str))
    (hpre : PrintsCommands pre) :
    (runAndPrint root command environment timeout_seconds).Yields NoCompose
      (fun steps r => PrintsCommands steps ∧
        ∃ exit_code, r = .ok exit_code ∧ exit_code ≠ 0) pre := by
  refine Script.yields_bind.mpr (Script.yields_ask.mpr fun answer hanswer => ?_)
  obtain ⟨exit_code, text, hreading, hfails⟩ := hanswer hdocker
  refine Script.yields_ofExcept.mpr ?_
  rw [hreading]
  refine Script.yields_bind.mpr (Script.yields_ask.mpr fun printing hprinting => ?_)
  obtain rfl := hprinting
  refine ⟨?_, exit_code, rfl, hfails⟩
  simp only [PrintsCommands, printed, commandTexts] at hpre ⊢
  simp only [List.flatMap_append, hpre, List.flatMap_cons, List.flatMap_nil, hreading]
  simp

/-- Nothing is printed before the commands. -/
theorem PrintsCommands.ask {op : OracleOp} {answer : op.Answer} (hpre : PrintsCommands pre)
    (hrun : ∀ command cwd environment timeout_seconds,
      op ≠ .run command cwd environment timeout_seconds := by exact nofun)
    (hprint : ∀ text, op ≠ .print text := by exact nofun) :
    PrintsCommands (pre ++ [⟨op, answer⟩]) := by
  cases op <;> first
    | exact absurd rfl (hrun _ _ _ _)
    | exact absurd rfl (hprint _)
    | simpa [PrintsCommands, printed, commandTexts] using hpre

/-- Looking for a file prints no output of Compose. -/
theorem requireFile_yields {root : Path} {relative_path : Str} (hpre : PrintsCommands pre) :
    (requireFile root relative_path).Yields NoCompose
      (fun steps r => PrintsCommands steps ∧ ∃ path, r = .ok path ∧ True) pre := by
  refine Script.yields_ask.mpr fun found hfound => ?_
  obtain rfl := hfound
  exact ⟨hpre.ask, _, rfl, trivial⟩

/-- Looking for a free port prints no output of Compose. -/
theorem freePort_yields (hpre : PrintsCommands pre) :
    freePort.Yields NoCompose
      (fun steps r => PrintsCommands steps ∧ ∃ port, r = .ok port ∧ True) pre := by
  refine Script.yields_ask.mpr fun answer hanswer => ?_
  obtain ⟨port, rfl⟩ := hanswer
  exact ⟨hpre.ask, _, rfl, trivial⟩

/-- What follows a part that does not raise. -/
theorem yields_after {α β : Type} {p : OracleM α} {f : α → OracleM β} {P : α → Prop}
    {Q : OracleTrace → Except OracleError β → Prop}
    (hp : p.Yields NoCompose (fun steps r => PrintsCommands steps ∧ ∃ a, r = .ok a ∧ P a) pre)
    (hf : ∀ steps a, PrintsCommands steps → P a → (f a).Yields NoCompose Q steps) :
    (p >>= f).Yields NoCompose Q pre := by
  refine Script.yields_bind.mpr (hp.mono fun steps r hr => ?_)
  obtain ⟨hsteps, a, rfl, ha⟩ := hr
  exact hf steps a hsteps ha

/-- The oracle fails in its cleanup, after what the commands printed. -/
theorem runMultiInstanceOracle_yields (root : Path) (hpre : PrintsCommands pre) :
    (runMultiInstanceOracle root).Yields NoCompose (fun steps r => PrintsCommands steps ∧
      ∃ exit_code, r = .error (.OracleFailure (cleanupFailure exit_code))) pre := by
  refine yields_after (requireFile_yields hpre) fun steps _ hsteps _ => ?_
  refine yields_after (requireFile_yields hsteps) fun steps _ hsteps _ => ?_
  refine yields_after (requireFile_yields hsteps) fun steps smoke hsteps _ => ?_
  refine Script.yields_ask.mpr fun executable hexecutable => ?_
  obtain rfl := hexecutable
  refine Script.yields_ask.mpr fun pid _ => Script.yields_ask.mpr fun time _ => ?_
  refine yields_after (freePort_yields hsteps.ask.ask.ask) fun steps gateway_port hsteps _ => ?_
  refine yields_after (freePort_yields hsteps) fun steps db_port hsteps _ => ?_
  refine yields_after (freePort_yields hsteps) fun steps redis_port hsteps _ => ?_
  refine Script.yields_withFinally ?_
  refine yields_after (runAndPrint_yields rfl hsteps) fun steps exit_code hsteps hfails => ?_
  rw [if_pos hfails]
  refine yields_after (runAndPrint_yields rfl hsteps) fun steps exit_code hsteps hfails => ?_
  rw [if_pos hfails]
  exact ⟨hsteps, exit_code, rfl⟩

/-- The text on the standard error after a failed cleanup. -/
def cleanupError (exit_code : ℤ) : Str := "ORACLE FAIL: " ++ cleanupFailure exit_code ++ "\n"

/-- Without Docker the oracle exits with one and only its own message. -/
theorem oracleMain_yields (root : Path) :
    (oracleMain root).Yields NoCompose (fun steps r => PrintsCommands steps ∧
      ∃ exit_code, r = .ok (1, cleanupError exit_code)) [] := by
  refine Script.yields_bind.mpr (Script.yields_attempt.mpr ?_)
  refine Script.yields_ask.mpr fun answer hanswer => ?_
  obtain ⟨resolved, rfl⟩ := hanswer
  have hnothing : PrintsCommands ([] : OracleTrace) := rfl
  refine (runMultiInstanceOracle_yields resolved hnothing.ask).mono ?_
  rintro steps r ⟨hsteps, exit_code, rfl⟩
  exact ⟨hsteps, exit_code, rfl⟩

/-- Text that was encoded is read back. -/
def DecodesUtf8 : Prop :=
  ∀ text raw, Bytes.encode false text = .ok raw → ByteRuntime.decodeReplace raw = text

/-- What the process of the oracle returns without Docker. -/
theorem OracleProcess.noCompose (hdecode : DecodesUtf8) {root : Path} {steps : OracleTrace}
    {result : CompletedProcess} (h : OracleProcess root steps result)
    (hsteps : ∀ step ∈ steps, NoCompose step.op step.answer) :
    result.returncode = 1 ∧ ∃ exit_code,
      ByteRuntime.decodeReplace (result.stdout ++ result.stderr) =
        commandTexts steps ++ cleanupError exit_code := by
  obtain ⟨exit_code, stderr, hreplay, hreturncode, hstdout, hstderr⟩ := h
  obtain ⟨hprinted, failed, hresult⟩ := (oracleMain_yields root).replay hsteps hreplay
  obtain ⟨rfl, rfl⟩ := Prod.mk.inj (Except.ok.inj hresult)
  refine ⟨hreturncode, failed, ?_⟩
  rw [hdecode _ _ (Bytes.encode_append hstdout hstderr)]
  exact congrArg (· ++ cleanupError failed) hprinted

end Failing

section Verdict

/-- What the harness looks for in the output of a command. -/
def dockerMarker : Str := "Could not find a valid Docker environment"

omit [ByteRuntime] in
/-- The text after a failed cleanup does not look like the marker. -/
theorem contains_append_cleanupError (text : Str) (exit_code : ℤ) :
    (text ++ cleanupError exit_code).contains dockerMarker = text.contains dockerMarker := by
  have hcons : ("ORACLE FAIL: " : Str) = 0x4f :: ("RACLE FAIL: " : Str) := by decide
  have hfirst : 0x4f ∉ dockerMarker := by decide
  have hletter : 0x44 ∈ dockerMarker := by decide
  have hrest : ¬dockerMarker <:+: ("RACLE FAIL: " : Str) ++ (cleanupFailure exit_code ++ "\n") := by
    intro hinfix
    have hmem := hinfix.subset hletter
    simp only [cleanupFailure, List.mem_append] at hmem
    obtain hmem | ((hmem | hmem) | hmem) | hmem := hmem
    · exact absurd hmem (by decide)
    · exact absurd hmem (by decide)
    · obtain hminus | hdigit := JsonText.mem_ofInt hmem
      · exact absurd hminus (by decide)
      · exact absurd hdigit (by decide)
    · exact absurd hmem (by decide)
    · exact absurd hmem (by decide)
  rw [Bool.eq_iff_iff, Str.contains, Str.contains, decide_eq_true_eq, decide_eq_true_eq,
    cleanupError, List.append_assoc, hcons, List.cons_append, infix_append_cons_iff hfirst]
  exact or_iff_left hrest

omit [ByteRuntime] in
/-- The command of the Docker probe. -/
def dockerInfo : List Str := ["docker", "info"]

/-- The command exits with zero. -/
def Succeeds (answer : Except Exc CompletedProcess) : Prop :=
  ∃ result, answer = .ok result ∧ result.returncode = 0

/-- The command of an oracle. -/
def oracleCommand (root : Path) (check_id : Str) : List Str :=
  [Runtime.executable, "scripts/harness-oracles.py", root.asPosix, check_id]

/-- How commands end without Docker: `docker info` fails, and so do the commands of the
multi-instance oracle, which print `text`; everything else passes. -/
structure EndsWithoutDocker (root : Path) (text : Str) (command : List Str)
    (answer : Except Exc CompletedProcess) : Prop where
  info : command = dockerInfo → ¬Succeeds answer
  unit : command = harnessTestCommand → Succeeds answer
  oracles : ∀ check_id ∈ domainOracleCheckIds, check_id ≠ "oracle.multi-instance" →
    command = oracleCommand root check_id → Succeeds answer
  multi_instance : command = oracleCommand root "oracle.multi-instance" →
    ∃ result steps, answer = .ok result ∧ OracleProcess root steps result ∧
      (∀ step ∈ steps, NoCompose step.op step.answer) ∧ commandTexts steps = text
  errors : ∀ error, answer = .error error → error.isOSError = true

/-- Docker is not available to the harness. -/
def NoDocker (root : Path) (text : Str) : (op : Op) → op.Answer → Prop
  | .run command _ _, answer => EndsWithoutDocker root text command answer
  | _, _ => True

/-- The check is neither failed nor to be replanned. -/
def NotFailed (check : CheckResult) : Prop := check.state = .PASS ∨ check.state = .BLOCKED

variable {root : Path} {text : Str}

/-- Without Docker, commands that cannot be run raise an `OSError`. -/
theorem NoDocker.osErrorsOnly (op : Op) (answer : op.Answer) (h : NoDocker root text op answer) :
    OSErrorsOnly op answer := by
  cases op with
  | run command cwd dont_write_bytecode =>
    cases answer with
    | error error => exact h.errors error rfl
    | ok result => trivial
  | _ => trivial

/-- A check of the environment passes or is blocked, and is blocked if its command fails. -/
theorem blockedEnvironmentCheck_states (check_id : Str) (command : List Str) :
    (blockedEnvironmentCheck root check_id command).Meets (NoDocker root text) (fun _ => False)
      fun check => NotFailed check ∧ (command = dockerInfo → check.state = .BLOCKED) := by
  refine meets_ask fun answer hanswer => ?_
  cases answer with
  | error error =>
    have hos : error.isOSError = true := hanswer.errors error rfl
    simp only [hos, if_true]
    exact meets_ask fun duration _ => ⟨.inr rfl, fun _ => rfl⟩
  | ok result =>
    refine meets_ask fun duration _ => ?_
    by_cases hzero : result.returncode = 0
    · refine ⟨.inl (if_pos hzero), fun hinfo => ?_⟩
      exact absurd ⟨result, rfl, hzero⟩ (hanswer.info hinfo)
    · exact ⟨.inr (if_neg hzero), fun _ => if_neg hzero⟩

/-- A check of a program does not fail, and that of Docker is blocked. -/
theorem binaryCheck_states (check_id name argument : Str) :
    (binaryCheck root check_id name argument).Meets (NoDocker root text) (fun _ => False)
      fun check => NotFailed check ∧
        ([name, argument] = dockerInfo → check.state = .BLOCKED) := by
  refine meets_ask fun found _ => ?_
  cases found with
  | none => exact ⟨.inr rfl, fun _ => rfl⟩
  | some path => exact blockedEnvironmentCheck_states _ _

/-- The toolchain check does not fail. -/
theorem toolchainCheck_states :
    (toolchainCheck root).Meets (NoDocker root text) (fun _ => False) NotFailed := by
  refine Script.Meets.bind (Q := fun _ => True) ?_ fun executable _ => ?_
  · refine meets_ask fun isFile _ => ?_
    cases isFile with
    | false => trivial
    | true => exact fun _ _ => trivial
  · cases executable with
    | false => exact .inr rfl
    | true =>
      refine (blockedEnvironmentCheck_states _ _).bind fun check hcheck => ?_
      rw [Script.Meets.pure]
      unfold requireJava17
      split
      · exact .inr rfl
      · exact hcheck.1

/-- The preflight does not fail, and its check of Docker is blocked. -/
theorem runPreparePreflight_states :
    (runPreparePreflight root).Meets (NoDocker root text) (fun _ => False) fun checks =>
      (∀ check ∈ checks, NotFailed check) ∧ ∃ check ∈ checks, check.state = .BLOCKED := by
  refine meets_ask fun version _ => ?_
  refine (binaryCheck_states _ _ _).bind fun java hjava => ?_
  refine (binaryCheck_states _ _ _).bind fun docker hdocker => ?_
  refine toolchainCheck_states.bind fun toolchain htoolchain => ?_
  have hpython : NotFailed (pythonCheck version) := ite_eq_or_eq _ _ _
  refine ⟨?_, docker, by simp, hdocker.2 rfl⟩
  simp only [List.forall_mem_cons, List.not_mem_nil, false_imp_iff, implies_true, and_true]
  exact ⟨hpython, hjava.1, hdocker.1, htoolchain⟩

/-- Without Docker the Gradle tests are not run. -/
theorem runGradleTest_states (check_id : Str) :
    (runGradleTest root check_id).Meets (NoDocker root text) (fun _ => False) fun checks =>
      (∀ check ∈ checks, NotFailed check) ∧ ∃ check ∈ checks, check.state = .BLOCKED := by
  have hproduced := (runPreparePreflight_produces root).imp (@NoDocker.osErrorsOnly _ root text)
  refine (hproduced.and runPreparePreflight_states).bind fun preflight h => ?_
  obtain ⟨⟨hids, hdurations⟩, hstates, hblocked⟩ := h
  refine Script.Meets.bind (Q := fun checks => checks = preflight) ?_ ?_
  · rw [validatePreflightResults_eq_ok hids hdurations]
    exact rfl
  · rintro checks rfl
    have hblocks : (checks.filter fun check => check.state ≠ .PASS).isEmpty = false := by
      obtain ⟨check, hcheck, hstate⟩ := hblocked
      rw [Bool.eq_false_iff, ne_eq, List.isEmpty_iff, List.filter_eq_nil_iff]
      exact fun hpass => hpass check hcheck (by simp [hstate])
    simp only [hblocks, Bool.false_eq_true, if_false]
    obtain ⟨check, hcheck, hstate⟩ := hblocked
    refine ⟨List.forall_mem_append.mpr ⟨hstates, List.forall_mem_singleton.mpr (.inr rfl)⟩, ?_⟩
    exact ⟨check, List.mem_append_left _ hcheck, hstate⟩

/-- A command that does without Docker passes. -/
theorem executeCommand_states {check_id : Str} {command : List Str}
    (h : ∀ answer, EndsWithoutDocker root text command answer → Succeeds answer) :
    (executeCommand root check_id command).Meets (NoDocker root text) (fun _ => False)
      (·.state = .PASS) := by
  refine meets_ask fun answer hanswer => ?_
  obtain ⟨result, rfl, hzero⟩ := h answer hanswer
  exact meets_ask fun duration _ => if_pos hzero

/-- The result of the multi-instance oracle depends on what its commands print. -/
theorem executeCommand_multiInstance (hdecode : DecodesUtf8) :
    (executeCommand root "oracle.multi-instance" (oracleCommand root "oracle.multi-instance")).Meets
      (NoDocker root text) (fun _ => False) fun check =>
        check.state = if text.contains dockerMarker then .BLOCKED else .FAIL := by
  refine meets_ask fun answer hanswer => ?_
  obtain ⟨result, steps, rfl, hprocess, hsteps, htext⟩ := hanswer.multi_instance rfl
  obtain ⟨hone, exit_code, houtput⟩ := hprocess.noCompose hdecode hsteps
  refine meets_ask fun duration _ => ?_
  have hfails : result.returncode ≠ 0 := by
    rw [hone]
    decide
  have hmarker : (ByteRuntime.decodeReplace (result.stdout ++ result.stderr)).contains
      "Could not find a valid Docker environment" = text.contains dockerMarker := by
    rw [houtput, htext]
    exact contains_append_cleanupError text exit_code
  rw [Script.Meets.pure, if_neg hfails, hmarker]
  by_cases hcontains : text.contains dockerMarker = true
  · rw [if_pos ⟨.inr rfl, hcontains⟩, if_pos hcontains]
  · rw [if_neg fun h => hcontains h.2, if_neg hcontains]

/-- What the results for one id are without Docker. -/
def StatesWithoutDocker (text check_id : Str) (checks : List CheckResult) : Prop :=
  (check_id = "gradle.test" → ∃ check ∈ checks, check.state = .BLOCKED) ∧
    ((∀ check ∈ checks, NotFailed check) ↔
      (check_id = "oracle.multi-instance" → text.contains dockerMarker = true))

omit [ByteRuntime] in
/-- A check of other tests may pass or be blocked. -/
theorem statesWithoutDocker_of_notFailed {check_id : Str} {check : CheckResult}
    (hgradle : check_id ≠ "gradle.test") (hother : check_id ≠ "oracle.multi-instance")
    (h : NotFailed check) : StatesWithoutDocker text check_id [check] :=
  ⟨fun heq => absurd heq hgradle, iff_of_true (List.forall_mem_singleton.mpr h) fun heq =>
    absurd heq hother⟩

/-- Every required check ends as it does without Docker. -/
theorem runRequiredCheck_states (hdecode : DecodesUtf8) (check_id : Str) :
    (runRequiredCheck root check_id).Meets (NoDocker root text) (fun _ => False)
      (StatesWithoutDocker text check_id) := by
  unfold runRequiredCheck
  by_cases hunit : check_id = "harness.unit"
  · rw [if_pos hunit]
    refine (executeCommand_states fun answer h => h.unit rfl).bind fun check hpass => ?_
    exact statesWithoutDocker_of_notFailed (hunit ▸ by decide) (hunit ▸ by decide) (.inl hpass)
  rw [if_neg hunit]
  by_cases hgradle : check_id = "gradle.test"
  · rw [if_pos hgradle]
    refine (runGradleTest_states check_id).mono fun checks h => ⟨fun _ => h.2, ?_⟩
    exact iff_of_true h.1 fun heq => absurd (hgradle.symm.trans heq) (by decide)
  rw [if_neg hgradle]
  by_cases hdomain : check_id ∈ domainOracleCheckIds
  · rw [if_pos hdomain]
    by_cases hmulti : check_id = "oracle.multi-instance"
    · subst hmulti
      refine (executeCommand_multiInstance hdecode).bind fun check hstate => ?_
      refine ⟨fun heq => absurd heq (by decide), ?_⟩
      rw [List.forall_mem_singleton, NotFailed, hstate]
      by_cases hcontains : text.contains dockerMarker = true
      · simp [hcontains]
      · simp [hcontains]
    · refine (executeCommand_states fun answer h => h.oracles check_id hdomain hmulti rfl).bind
        fun check hpass => ?_
      exact statesWithoutDocker_of_notFailed hgradle hmulti (.inl hpass)
  · rw [if_neg hdomain]
    have hmulti : check_id ≠ "oracle.multi-instance" := fun heq => hdomain (heq ▸ by decide)
    exact statesWithoutDocker_of_notFailed hgradle hmulti (.inr rfl)

/-- The results for all ids. -/
theorem runRequiredChecks_states (hdecode : DecodesUtf8) (check_ids : List Str) :
    (runRequiredChecks root check_ids).Meets (NoDocker root text) (fun _ => False) fun checks =>
      (("gradle.test" : Str) ∈ check_ids → ∃ check ∈ checks, check.state = .BLOCKED) ∧
        ((∀ check ∈ checks, NotFailed check) ↔
          (("oracle.multi-instance" : Str) ∈ check_ids → text.contains dockerMarker = true)) := by
  refine (Script.Meets.mapM (runRequiredCheck_states hdecode)).bind fun found hfound => ?_
  refine Script.Meets.pure.mpr ?_
  induction hfound with
  | nil => simp
  | cons hcheck _ ih =>
    obtain ⟨hblocked, hstates⟩ := hcheck
    rw [List.flatten_cons, List.forall_mem_append, hstates, ih.2]
    constructor
    · intro hgradle
      obtain heq | hmem := List.mem_cons.mp hgradle
      · obtain ⟨check, hcheck, hstate⟩ := hblocked heq.symm
        exact ⟨check, List.mem_append_left _ hcheck, hstate⟩
      · obtain ⟨check, hcheck, hstate⟩ := ih.1 hmem
        exact ⟨check, List.mem_append_right _ hcheck, hstate⟩
    · rw [List.mem_cons, or_imp, eq_comm]

/-- **When a missing Docker blocks.** In every run without Docker the required checks add up to
`BLOCKED` if and only if the multi-instance oracle is not among them, or its commands print the
marker that the harness looks for. -/
theorem docker_unavailable_blocked_iff (hdecode : DecodesUtf8) {plan : Plan}
    {classification : RiskClassification} {policy : RiskPolicy} {ids : List Str}
    (hids : requiredCheckIds plan classification policy = .ok ids) {steps : Trace}
    {r : Except Failure (List CheckResult)}
    (hrun : (runRequiredChecks root ids).replay steps = some r)
    (hdocker : ∀ step ∈ steps, NoDocker root text step.op step.answer) :
    ∃ checks, r = .ok checks ∧ (aggregateState checks = .BLOCKED ↔
      (("oracle.multi-instance" : Str) ∈ ids → text.contains dockerMarker = true)) := by
  obtain ⟨herror, hok⟩ := (runRequiredChecks_states hdecode ids).replay hdocker hrun
  cases r with
  | error e => exact absurd (herror e rfl) id
  | ok checks =>
    obtain ⟨hblocked, hstates⟩ := hok checks rfl
    obtain ⟨selected, -, hselected⟩ := Checked.bind_eq_ok.mp hids
    have hgradle : ("gradle.test" : Str) ∈ ids := by
      obtain rfl := Except.ok.inj hselected
      exact List.mem_append_left _ (by decide)
    refine ⟨checks, rfl, ?_⟩
    rw [aggregateState_eq_blocked, ← hstates]
    exact and_iff_right (hblocked hgradle)

end Verdict

end Oracle

namespace Sample

/-- The runtime, with a decoder for UTF-8. -/
abbrev utf8Runtime : ByteRuntime := { runtime with
  decodeReplace raw := (Bytes.decodeSurrogateescape raw).map fun c =>
    if 0xd800 ≤ c.val ∧ c.val ≤ 0xdfff then 0xfffd else c }

/-- The runtime of the sample decodes what it encodes. -/
theorem utf8Runtime_decodes : @DecodesUtf8 utf8Runtime := by
  intro text raw hencode
  have hscalar := Bytes.scalar_of_encode hencode
  change (Bytes.decodeSurrogateescape raw).map _ = text
  rw [Bytes.decodeSurrogateescape_encode hencode, List.map_congr_left, List.map_id]
  exact fun c hc => if_neg (hscalar c hc)

/-- A world of the oracle in which every command ends in the same way. -/
def ending (outcome : Outcome) (_ : Unit) (op : OracleOp) : op.Answer × Unit :=
  (match op with
    | .resolve path => .ok path
    | .isFile _ | .isExecutable _ => true
    | .getpid => 4711
    | .time => 1784000000
    | .freePort => .ok 40000
    | .run _ _ _ _ => outcome
    | .print _ => .ok (), ())

/-- The steps of the oracle in that world. -/
def oracleSteps [ByteRuntime] (outcome : Outcome) : OracleTrace :=
  ((oracleMain root).exec (ending outcome) ()).1

/-- A world without Docker. -/
def withoutDocker [ByteRuntime] (result : CompletedProcess) (s : Unit) (op : Op) :
    op.Answer × Unit :=
  match op with
  | .run command _ _ =>
    (.ok (if command = oracleCommand root "oracle.multi-instance" then result
      else if command = dockerInfo then ⟨1, [], []⟩
      else ⟨0, [], []⟩), ())
  | op => calm s op

/-- The sample answers as a machine without Docker. -/
theorem withoutDocker_noDocker [ByteRuntime] {result : CompletedProcess} {text : Str}
    (hmulti : ∃ steps, OracleProcess root steps result ∧
      (∀ step ∈ steps, NoCompose step.op step.answer) ∧ commandTexts steps = text)
    (s : Unit) (op : Op) :
    NoDocker root text op (withoutDocker result s op).1 := by
  cases op with
  | run command cwd dont_write_bytecode =>
    have hpasses (h : command ≠ oracleCommand root "oracle.multi-instance")
        (h' : command ≠ dockerInfo) :
        Succeeds (withoutDocker result s (.run command cwd dont_write_bytecode)).1 :=
      ⟨⟨0, [], []⟩, by simp only [withoutDocker, if_neg h, if_neg h'], rfl⟩
    have hsecond {command command' : List Str} (h : command[1]? ≠ command'[1]?) :
        command ≠ command' := fun heq => h (by rw [heq])
    refine ⟨?_, ?_, ?_, ?_, fun error herror => nomatch herror⟩
    · rintro rfl ⟨found, hfound, hzero⟩
      have hinfo : dockerInfo ≠ oracleCommand root "oracle.multi-instance" :=
        hsecond (by change some ("info" : Str) ≠ some "scripts/harness-oracles.py"; decide)
      simp only [withoutDocker, if_neg hinfo, if_true] at hfound
      obtain rfl := Except.ok.inj hfound
      exact absurd hzero (by decide)
    · rintro rfl
      apply hpasses
      · exact hsecond (by change some ("-m" : Str) ≠ some "scripts/harness-oracles.py"; decide)
      · exact hsecond (by change some ("-m" : Str) ≠ some "info"; decide)
    · rintro check_id - hne rfl
      apply hpasses
      · simpa [oracleCommand] using hne
      · exact hsecond (by change some ("scripts/harness-oracles.py" : Str) ≠ some "info"; decide)
    · rintro rfl
      obtain ⟨steps, hsteps⟩ := hmulti
      exact ⟨result, steps, by simp [withoutDocker], hsteps⟩
  | _ => trivial

/-- In the sample no Compose command succeeds. -/
theorem noCompose_ending [ByteRuntime] {outcome : Outcome} {exit_code : ℤ} {text : Str}
    (hreading : outcome.reading = .ok (exit_code, text)) (hfails : exit_code ≠ 0) :
    ∀ step ∈ oracleSteps outcome, NoCompose step.op step.answer := by
  refine Script.exec_answers (fun s op => ?_) (oracleMain root) ()
  cases op with
  | run command cwd environment timeout_seconds => exact fun _ => ⟨_, _, hreading, hfails⟩
  | resolve path => exact ⟨_, rfl⟩
  | freePort => exact ⟨_, rfl⟩
  | _ => first | rfl | trivial

/-- The message of the oracle can be encoded. -/
theorem cleanupError_encodes (exit_code : ℤ) :
    ∃ raw, Bytes.encode false (cleanupError exit_code) = .ok raw := by
  have literal {text : Str} (h : text.all (fun c => c.val < 0xd800 || 0xdfff < c.val) = true) :
      ∀ c ∈ text, ¬(0xd800 ≤ c.val ∧ c.val ≤ 0xdfff) := by
    intro c hc
    have hbounds := List.all_eq_true.mp h c hc
    simp only [Bool.or_eq_true, decide_eq_true_eq] at hbounds
    omega
  have hdigits : ∀ c ∈ Str.ofInt exit_code, ¬(0xd800 ≤ c.val ∧ c.val ≤ 0xdfff) := by
    intro c hc
    have hascii := JsonText.isAscii_ofInt exit_code c hc
    omega
  apply Bytes.exists_encode_of_scalar
  simp only [cleanupError, cleanupFailure, List.forall_mem_append]
  exact ⟨⟨literal (by decide), ⟨literal (by decide +kernel), hdigits⟩, literal (by decide)⟩,
    literal (by decide)⟩

/-- A process of the oracle where every command fails in the same way. -/
theorem exists_oracleProcess [ByteRuntime] {outcome : Outcome} {exit_code : ℤ} {text : Str}
    (hreading : outcome.reading = .ok (exit_code, text)) (hfails : exit_code ≠ 0)
    (hencodes : (Bytes.encode false (commandTexts (oracleSteps outcome))).isOk = true) :
    ∃ result, OracleProcess root (oracleSteps outcome) result := by
  have hreplay := Script.replay_exec (ending outcome) (oracleMain root) ()
  obtain ⟨hprinted, failed, hresult⟩ :=
    (oracleMain_yields root).replay (noCompose_ending hreading hfails) hreplay
  obtain ⟨stderr, hstderr⟩ := cleanupError_encodes failed
  cases hstdout : Bytes.encode false (commandTexts (oracleSteps outcome)) with
  | error e =>
    rw [hstdout] at hencodes
    exact nomatch hencodes
  | ok stdout =>
    rw [hresult] at hreplay
    exact ⟨⟨1, stdout, stderr⟩, 1, _, hreplay, rfl, hprinted ▸ hstdout, hstderr⟩

/-- The ids that are required where the oracle checks a risk. -/
def multiInstanceIds : List Str := ["harness.unit", "gradle.test", "oracle.multi-instance"]

/-- The sample policy requires the oracle of several instances. -/
theorem requiredCheckIds_multiInstance [ByteRuntime] :
    requiredCheckIds plan ⟨[], []⟩ (policyWith "oracle.multi-instance") = .ok multiInstanceIds := by
  rfl

/-- `docker` is not installed. -/
def notInstalled : Outcome :=
  .raised ⟨.FileNotFoundError, "[Errno 2] No such file or directory: 'docker'"⟩

/-- The daemon is not running. -/
def notRunning : Outcome :=
  .completed ⟨1, [], Bytes.ofString ("Cannot connect to the Docker daemon at " ++
    "unix:///var/run/docker.sock. Is the docker daemon running?\n")⟩

end Sample

/-- Where `docker` is not installed, the checks are blocked. -/
theorem docker_unavailable_blocked_iff_notInstalled :
    ∃ steps checks, (@runRequiredChecks Sample.utf8Runtime Sample.root
        Sample.multiInstanceIds).replay steps = some (.ok checks) ∧
      aggregateState checks = .BLOCKED := by
  let _ := Sample.utf8Runtime
  obtain ⟨result, hresult⟩ := Sample.exists_oracleProcess
    (show Sample.notInstalled.reading = .ok (_, _) from rfl) (by decide) (by decide +kernel)
  have hdocker := Sample.withoutDocker_noDocker
    ⟨_, hresult, Sample.noCompose_ending rfl (by decide), rfl⟩
  let p := runRequiredChecks Sample.root Sample.multiInstanceIds
  have hsteps := Script.exec_answers hdocker p ()
  have hreplay := Script.replay_exec (Sample.withoutDocker result) p ()
  obtain ⟨checks, hchecks, hiff⟩ := docker_unavailable_blocked_iff Sample.utf8Runtime_decodes
    Sample.requiredCheckIds_multiInstance hreplay hsteps
  rw [hchecks] at hreplay
  exact ⟨_, checks, hreplay, hiff.mpr fun _ => by decide +kernel⟩

/-- Not in every run: the daemon may be missing instead of the program. -/
theorem not_docker_unavailable_blocked :
    ¬∀ (_ : ByteRuntime), DecodesUtf8 → ∀ (plan : Plan) (classification : RiskClassification)
      (policy : RiskPolicy) (ids : List Str) (root : Path) (text : Str) (steps : Trace)
      (checks : List CheckResult), requiredCheckIds plan classification policy = .ok ids →
      (runRequiredChecks root ids).replay steps = some (.ok checks) →
      (∀ step ∈ steps, NoDocker root text step.op step.answer) →
      aggregateState checks = .BLOCKED := by
  intro hclaim
  let _ := Sample.utf8Runtime
  obtain ⟨result, hresult⟩ := Sample.exists_oracleProcess
    (show Sample.notRunning.reading = .ok (_, _) from rfl) (by decide) (by decide +kernel)
  have hdocker := Sample.withoutDocker_noDocker
    ⟨_, hresult, Sample.noCompose_ending rfl (by decide), rfl⟩
  let p := runRequiredChecks Sample.root Sample.multiInstanceIds
  have hsteps := Script.exec_answers hdocker p ()
  have hreplay := Script.replay_exec (Sample.withoutDocker result) p ()
  have hmeets := (runRequiredChecks_states Sample.utf8Runtime_decodes
    Sample.multiInstanceIds).replay hsteps hreplay
  cases hr : (p.exec (Sample.withoutDocker result) ()).2.1 with
  | error e => exact hmeets.1 e hr
  | ok checks =>
    rw [hr] at hreplay
    have hblocked := hclaim Sample.utf8Runtime Sample.utf8Runtime_decodes _ _ _ _ _ _ _ checks
      Sample.requiredCheckIds_multiInstance hreplay hsteps
    have hall := (aggregateState_eq_blocked.mp hblocked).2
    have hmarker := (hmeets.2 checks hr).2.mp hall (by decide +kernel)
    exact absurd hmarker (by decide +kernel)

end CoffeeOrder.Harness
