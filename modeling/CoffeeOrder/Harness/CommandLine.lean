import CoffeeOrder.Harness.PassedRuns
import CoffeeOrder.Kit.Handlers

/-!
# The command line of the harness

`main` finds the repository, prepares or evaluates a plan with the preflight and the check runner
that the script itself provides, prints the checks and exits. An exit status of zero is what other
programs go by: it stands for a run that has seen everything, and whose commands have all exited
with zero.
-/

namespace CoffeeOrder.Harness

open Kit Python

/-- The value of a `State`. -/
def State.value : State → ℕ
  | .PASS => 0
  | .FAIL => 1
  | .BLOCKED => 2
  | .REPLAN_REQUIRED => 3

/-- What `parse_args` does: it prints a help text and exits, it refuses the arguments, or it returns
the command and the plan. -/
inductive Arguments
  | help (text : Str)
  | refused (message : Str)
  | parsed (command : Str) (plan : Path)

/-- What `main` finds around it: the current directory, and which lines cannot be printed. -/
structure Terminal where
  cwd : Except Exc Path
  stdout : ℕ → Option Exc
  stderr : Option Exc

/-- What is left of a process: its exit status and the lines that it has printed. -/
structure Report where
  status : ℕ
  stdout : List Str
  stderr : List Str

section Components

variable [ByteRuntime]

/-- What the caller gets of a function that returns a tuple of results. -/
def returned (p : HarnessM (List CheckResult)) :
    Script Empty Op.Answer (Except Failure RawChecks) :=
  p.attempt >>= fun r => pure (r.map fun checks => .ok (checks.map (·.toCandidate)))

/-- The default arguments of `prepare` and `evaluate`. -/
def builtin : Script.Handler Op.Answer
  | .checkRunner root check_ids => some (returned (runRequiredChecks root check_ids))
  | .preflight root => some (returned (runPreparePreflight root))
  | _ => none

end Components

section Scripts

variable [ByteRuntime]

/-- `find_git_root`. -/
def findGitRoot (start : Path) : HarnessM Path := do
  let raw ← runGit start ["rev-parse", "--show-toplevel"]
  let root := (Bytes.decodeSurrogateescape raw).strip
  if root = [] then
    throw (.HarnessViolation .BLOCKED "git.repository" "git 저장소 루트를 찾을 수 없습니다.")
  resolve (.ofStr root)

/-- A line that reports a state. -/
def stateLine (state : State) (check_id reason : Str) : Str :=
  "[" ++ state.name ++ "] " ++ check_id ++ ": " ++ Runtime.repr reason

/-- `print_checks`: the lines that were printed, and the exception that stopped it. -/
def printChecks (stdout : ℕ → Option Exc) (checks : List CheckResult) : List Str × Option Exc :=
  let lines := checks.map fun check => stateLine check.state check.check_id check.reason
  match (List.range lines.length).find? fun n => (stdout n).isSome with
  | none => (lines, none)
  | some n => (lines.take n, stdout n)

/-- The body of `try` in `main` up to the printing: the state and the checks. -/
def runCommandLine (command : Str) (plan : Path) (cwd : Except Exc Path) :
    HarnessM (State × List CheckResult) := do
  let root ← findGitRoot (← liftM (orRaise cwd))
  if command = "prepare" then prepare root plan
  else if command = "evaluate" then do
    let evaluation ← evaluate root plan
    return (evaluation.state, evaluation.checks)
  else throw (.HarnessViolation .FAIL "cli.arguments" "지원하지 않는 command입니다.")

omit [ByteRuntime] in
/-- Print the last line to the standard error; if that raises, the process ends with a traceback. -/
def complain (terminal : Terminal) (printed : List Str) (status : ℕ) (line : Str) : Report :=
  match terminal.stderr with
  | none => ⟨status, printed, [line]⟩
  | some _ => ⟨1, printed, []⟩

/-- The last `except` of `main`. -/
def internalError (terminal : Terminal) (printed : List Str) (error : Exc) : Report :=
  complain terminal printed State.FAIL.value
    ("[FAIL] harness.internal: " ++ Runtime.repr (describe error))

/-- How `main` ends. -/
def reportOutcome (terminal : Terminal) : Except Failure (State × List CheckResult) → Report
  | .ok (state, checks) => match printChecks terminal.stdout checks with
    | (lines, none) => ⟨state.value, lines, []⟩
    | (lines, some error) => internalError terminal lines error
  | .error (.HarnessViolation state check_id reason) =>
    complain terminal [] state.value (stateLine state check_id reason)
  | .error (.raised error) => internalError terminal [] error

/-- `main`, as a process. -/
def main (arguments : Arguments) (terminal : Terminal) : HarnessM Report :=
  match arguments with
  | .help text => return ⟨0, [text], []⟩
  | .refused message =>
    return reportOutcome terminal (.error (.HarnessViolation .FAIL "cli.arguments" message))
  | .parsed command plan => do
    let outcome ← Script.attempt (runCommandLine command plan terminal.cwd)
    return reportOutcome terminal outcome

end Scripts

section Commands

variable [ByteRuntime] {root : Path} {steps : Trace}

/-- The command was run, and exited with zero. -/
def ExitedZero (root : Path) (dont_write_bytecode : Bool) (steps : Trace) (command : List Str) :
    Prop :=
  ∃ result : CompletedProcess,
    (⟨.run command root dont_write_bytecode, .ok result⟩ : Step Op.Answer) ∈ steps ∧
      result.returncode = 0

/-- The commands of the preflight. -/
def environmentCommands : List (List Str) :=
  [["java", "-version"], ["docker", "info"], ["./gradlew", "-q", "javaToolchains"]]

/-- The command that decides a required check, if there is one. -/
def checkCommand (root : Path) (check_id : Str) : Option (List Str) :=
  if check_id = "harness.unit" then some harnessTestCommand
  else if check_id = "gradle.test" then some gradleTestCommand
  else if check_id ∈ domainOracleCheckIds then
    some [Runtime.executable, "scripts/harness-oracles.py", root.asPosix, check_id]
  else none

omit [ByteRuntime] in
/-- What raises does not return. -/
theorem not_ranIn_throw {α : Type} {e : Failure} {a : α} :
    ¬(MonadExcept.throw e : HarnessM α).RanIn steps a := by
  rintro ⟨_, _, _, -, hreplay⟩
  cases (Script.replay_throw.mp hreplay).2

omit [ByteRuntime] in
/-- A check that passes has run its command, if only an exit status of zero is a pass. -/
theorem commandCheck_passed {dont_write_bytecode : Bool} {check_id : Str} {command : List Str}
    {unrun : State} {verdict : CompletedProcess → State × Str} {check : CheckResult}
    (h : (commandCheck root dont_write_bytecode check_id command unrun verdict).RanIn steps check)
    (hunrun : unrun ≠ .PASS)
    (hverdict : ∀ result, (verdict result).1 = .PASS → result.returncode = 0)
    (hpass : check.state = .PASS) : ExitedZero root dont_write_bytecode steps command := by
  obtain ⟨answer, hask, hrest⟩ := h.bind
  cases answer with
  | error error =>
    dsimp only at hrest
    split at hrest
    · obtain ⟨_, -, hpure⟩ := hrest.bind
      rw [hpure.of_pure] at hpass
      exact absurd hpass hunrun
    · exact absurd hrest not_ranIn_throw
  | ok result =>
    obtain ⟨_, -, hpure⟩ := hrest.bind
    rw [hpure.of_pure] at hpass
    exact ⟨result, hask.of_ask, hverdict result hpass⟩

/-- A required check that passes has run its command. -/
theorem executeCommand_passed {check_id : Str} {command : List Str} {check : CheckResult}
    (h : (executeCommand root check_id command).RanIn steps check) (hpass : check.state = .PASS) :
    ExitedZero root true steps command := by
  rw [executeCommand_eq] at h
  exact commandCheck_passed h nofun (fun _ => commandVerdict_pass) hpass

/-- An environment check that passes has run its command. -/
theorem blockedEnvironmentCheck_passed {check_id : Str} {command : List Str} {check : CheckResult}
    (h : (blockedEnvironmentCheck root check_id command).RanIn steps check)
    (hpass : check.state = .PASS) : ExitedZero root false steps command := by
  rw [blockedEnvironmentCheck_eq] at h
  exact commandCheck_passed h nofun (fun _ => environmentVerdict_pass) hpass

/-- A check of a program that passes has run it. -/
theorem binaryCheck_passed {check_id name argument : Str} {check : CheckResult}
    (h : (binaryCheck root check_id name argument).RanIn steps check)
    (hpass : check.state = .PASS) : ExitedZero root false steps [name, argument] := by
  obtain ⟨answer, -, hrest⟩ := h.bind
  cases answer with
  | none =>
    rw [hrest.of_pure] at hpass
    cases hpass
  | some _ => exact blockedEnvironmentCheck_passed hrest hpass

/-- A toolchain check that passes has run its command. -/
theorem toolchainCheck_passed {check : CheckResult} (h : (toolchainCheck root).RanIn steps check)
    (hpass : check.state = .PASS) :
    ExitedZero root false steps ["./gradlew", "-q", "javaToolchains"] := by
  obtain ⟨executable, -, hrest⟩ := h.bind
  cases executable with
  | false =>
    rw [hrest.of_pure] at hpass
    cases hpass
  | true =>
    obtain ⟨found, hfound, hpure⟩ := hrest.bind
    refine blockedEnvironmentCheck_passed hfound ?_
    rw [hpure.of_pure] at hpass
    unfold requireJava17 at hpass
    split at hpass
    · cases hpass
    · exact hpass

/-- A preflight that passes has run all its commands. -/
theorem runPreparePreflight_passed {checks : List CheckResult}
    (h : (runPreparePreflight root).RanIn steps checks)
    (hpass : ∀ check ∈ checks, check.state = .PASS) :
    ∀ command ∈ environmentCommands, ExitedZero root false steps command := by
  obtain ⟨version, -, h⟩ := h.bind
  obtain ⟨java, hjava, h⟩ := h.bind
  obtain ⟨docker, hdocker, h⟩ := h.bind
  obtain ⟨toolchain, htoolchain, h⟩ := h.bind
  rw [h.of_pure] at hpass
  simp only [List.forall_mem_cons] at hpass
  obtain ⟨-, hjava_pass, hdocker_pass, htoolchain_pass, -⟩ := hpass
  simp only [environmentCommands, List.forall_mem_cons]
  exact ⟨binaryCheck_passed hjava hjava_pass, binaryCheck_passed hdocker hdocker_pass,
    toolchainCheck_passed htoolchain htoolchain_pass, by simp⟩

/-- Gradle is run only after such a preflight. -/
theorem runGradleTest_passed {check_id : Str} {checks : List CheckResult}
    (h : (runGradleTest root check_id).RanIn steps checks)
    (hpass : ∀ check ∈ checks, check.state = .PASS) :
    ExitedZero root true steps gradleTestCommand ∧
      ∀ command ∈ environmentCommands, ExitedZero root false steps command := by
  obtain ⟨preflight, hpreflight, h⟩ := h.bind
  obtain ⟨environment_checks, hvalid, h⟩ := h.bind
  have hraw := (validatePreflightResults_spec hvalid.of_ofExcept).1
  obtain rfl := List.map_injective_iff.mpr CheckResult.toCandidate_injective (Except.ok.inj hraw)
  dsimp only at h
  split at h
  · obtain ⟨tests, htests, h⟩ := h.bind
    rw [h.of_pure] at hpass
    obtain ⟨henvironment, htested⟩ := List.forall_mem_append.mp hpass
    exact ⟨executeCommand_passed htests (htested _ List.mem_cons_self),
      runPreparePreflight_passed hpreflight henvironment⟩
  · rw [h.of_pure] at hpass
    cases List.forall_mem_singleton.mp (List.forall_mem_append.mp hpass).2

/-- A required check that passes has run its command. -/
theorem runRequiredCheck_passed {check_id : Str} {checks : List CheckResult}
    (h : (runRequiredCheck root check_id).RanIn steps checks)
    (hpass : ∀ check ∈ checks, check.state = .PASS) :
    (∃ command, checkCommand root check_id = some command ∧ ExitedZero root true steps command) ∧
      (check_id = "gradle.test" →
        ∀ command ∈ environmentCommands, ExitedZero root false steps command) := by
  unfold runRequiredCheck at h
  unfold checkCommand
  by_cases hunit : check_id = "harness.unit"
  · rw [if_pos hunit] at h ⊢
    obtain ⟨check, hcheck, h⟩ := h.bind
    rw [h.of_pure] at hpass
    exact ⟨⟨_, rfl, executeCommand_passed hcheck (hpass _ List.mem_cons_self)⟩,
      fun hgradle => absurd (hunit.symm.trans hgradle) harnessUnit_ne⟩
  rw [if_neg hunit] at h ⊢
  by_cases hgradle : check_id = "gradle.test"
  · rw [if_pos hgradle] at h ⊢
    obtain ⟨htested, henvironment⟩ := runGradleTest_passed h hpass
    exact ⟨⟨_, rfl, htested⟩, fun _ => henvironment⟩
  rw [if_neg hgradle] at h ⊢
  refine ⟨?_, fun heq => absurd heq hgradle⟩
  by_cases horacle : check_id ∈ domainOracleCheckIds
  · rw [if_pos horacle] at h ⊢
    obtain ⟨check, hcheck, h⟩ := h.bind
    rw [h.of_pure] at hpass
    exact ⟨_, rfl, executeCommand_passed hcheck (hpass _ List.mem_cons_self)⟩
  · rw [if_neg horacle] at h
    rw [h.of_pure] at hpass
    cases List.forall_mem_singleton.mp hpass

/-- The built-in runner passes only after all the commands. -/
theorem runRequiredChecks_passed {check_ids : List Str} {checks : List CheckResult}
    (h : (runRequiredChecks root check_ids).RanIn steps checks)
    (hpass : ∀ check ∈ checks, check.state = .PASS) {check_id : Str} (hmem : check_id ∈ check_ids) :
    (∃ command, checkCommand root check_id = some command ∧ ExitedZero root true steps command) ∧
      (check_id = "gradle.test" →
        ∀ command ∈ environmentCommands, ExitedZero root false steps command) := by
  obtain ⟨found, hfound, h⟩ := Script.RanIn.bind h
  obtain rfl := Script.RanIn.of_pure h
  obtain ⟨each, heach, hran⟩ := hfound.mapM hmem
  exact runRequiredCheck_passed hran fun check hcheck =>
    hpass check (List.mem_flatten.mpr ⟨each, heach, hcheck⟩)

end Commands

section Refusals

variable [ByteRuntime]

/-- No violation that the script raises claims to pass. -/
abbrev Rejecting {ε α : Type} (P : ε → Prop) (p : Script ε Op.Answer α) : Prop :=
  p.Within (fun _ => True) P

omit [ByteRuntime] in
/-- An attempt raises nothing. -/
theorem rejecting_attempt {ε ε' α : Type} {P : ε → Prop} (p : Script ε' Op.Answer α) :
    Rejecting P (p.attempt : Script ε Op.Answer (Except ε' α)) := by
  induction p with
  | done a => trivial
  | throw e => trivial
  | ask op next ih => exact ⟨trivial, fun answer => ih answer⟩

omit [ByteRuntime] in
/-- A sound script raises no violation that claims to pass. -/
theorem Sound.rejecting {α : Type} {p : HarnessM α} (hp : Sound p) : Rejecting Failure.Rejects p :=
  hp.imp fun _ _ => trivial

omit [ByteRuntime] in
/-- A check that runs a command raises no violation. -/
theorem commandCheck_rejects (root : Path) (dont_write_bytecode : Bool) (check_id : Str)
    (command : List Str) (unrun : State) (verdict : CompletedProcess → State × Str) :
    Rejecting Failure.Rejects
      (commandCheck root dont_write_bytecode check_id command unrun verdict) := by
  refine ⟨trivial, fun answer => ?_⟩
  cases answer with
  | error error => exact .ite ⟨trivial, fun _ => trivial⟩ trivial
  | ok result => exact ⟨trivial, fun _ => trivial⟩

/-- A required check raises no violation. -/
theorem executeCommand_rejects (root : Path) (check_id : Str) (command : List Str) :
    Rejecting Failure.Rejects (executeCommand root check_id command) := by
  rw [executeCommand_eq]
  exact commandCheck_rejects _ _ _ _ _ _

/-- An environment check raises no violation. -/
theorem blockedEnvironmentCheck_rejects (root : Path) (check_id : Str) (command : List Str) :
    Rejecting Failure.Rejects (blockedEnvironmentCheck root check_id command) := by
  rw [blockedEnvironmentCheck_eq]
  exact commandCheck_rejects _ _ _ _ _ _

/-- A check of a program raises no violation. -/
theorem binaryCheck_rejects (root : Path) (check_id name argument : Str) :
    Rejecting Failure.Rejects (binaryCheck root check_id name argument) := by
  refine ⟨trivial, fun answer => ?_⟩
  cases answer with
  | none => trivial
  | some _ => exact blockedEnvironmentCheck_rejects _ _ _

/-- The toolchain check raises no violation that claims to pass. -/
theorem toolchainCheck_rejects (root : Path) : Rejecting Failure.Rejects (toolchainCheck root) := by
  have hexecutable : Rejecting Failure.Rejects (isExecutableFile (root.child "gradlew")) := by
    refine ⟨trivial, fun answer => ?_⟩
    cases answer with
    | false => trivial
    | true => exact ⟨trivial, fun _ => trivial⟩
  refine hexecutable.bind fun executable => .ite ?_ trivial
  exact (blockedEnvironmentCheck_rejects _ _ _).bind fun _ => trivial

/-- The preflight raises no violation that claims to pass. -/
theorem runPreparePreflight_rejects (root : Path) :
    Rejecting Failure.Rejects (runPreparePreflight root) := by
  refine ⟨trivial, fun version => ?_⟩
  refine (binaryCheck_rejects _ _ _ _).bind fun _ => (binaryCheck_rejects _ _ _ _).bind fun _ => ?_
  exact (toolchainCheck_rejects _).bind fun _ => trivial

/-- The check of the Gradle tests raises no violation that claims to pass. -/
theorem runGradleTest_rejects (root : Path) (check_id : Str) :
    Rejecting Failure.Rejects (runGradleTest root check_id) := by
  refine (runPreparePreflight_rejects root).bind fun preflight => ?_
  refine (Script.Within.ofExcept (validatePreflightResults_rejects .ok)).bind fun checks =>
    .ite ?_ trivial
  exact (executeCommand_rejects _ _ _).bind fun _ => trivial

/-- A required check raises no violation that claims to pass. -/
theorem runRequiredCheck_rejects (root : Path) (check_id : Str) :
    Rejecting Failure.Rejects (runRequiredCheck root check_id) := by
  have hsingle (command : List Str) : Rejecting Failure.Rejects
      (do return [← executeCommand root check_id command] : HarnessM (List CheckResult)) :=
    (executeCommand_rejects _ _ _).bind fun _ => trivial
  exact .ite (hsingle _) (.ite (runGradleTest_rejects _ _) (.ite (hsingle _) trivial))

/-- The built-in check runner raises no violation that claims to pass. -/
theorem runRequiredChecks_rejects (root : Path) (check_ids : List Str) :
    Rejecting Failure.Rejects (runRequiredChecks root check_ids) :=
  (Script.Within.mapM fun _ => runRequiredCheck_rejects root _).bind fun _ => trivial

/-- The search for the repository raises no violation that claims to pass. -/
theorem findGitRoot_rejects (start : Path) : Rejecting Failure.Rejects (findGitRoot start) := by
  refine (sound_runGit _ _).rejecting.bind fun raw => .ite Failure.rejects_of_ne ?_
  exact (sound_resolve _ _).rejecting

/-- `prepare` raises no violation that claims to pass. -/
theorem prepare_rejects (root plan_path : Path) :
    Rejecting Failure.Rejects (prepare root plan_path) := by
  refine (rejecting_attempt _).bind fun outcome => ?_
  cases outcome with
  | ok result => trivial
  | error failure => trivial

omit [ByteRuntime] in
/-- The decision about the lock raises no violation that claims to pass. -/
theorem decideRestore_rejects (l : Locals) (ending : Option Identity) :
    Rejecting Failure.Rejects (decideRestore l ending) := by
  unfold decideRestore
  cases l.lock with
  | none => trivial
  | some lock =>
    cases ending with
    | none => trivial
    | some current =>
      cases hvalid : validatePlanLock lock current.plan current.context with
      | ok _ => simp only [hvalid]; trivial
      | error failure =>
        cases failure with
        | HarnessViolation state check_id reason => simp only [hvalid]; trivial
        | raised error => simp only [hvalid]; trivial

/-- Every step of `evaluate` handles what it raises, but the restoration of the lock. -/
theorem evaluate_rejects (root plan_path : Path) :
    Rejecting Failure.Rejects (evaluate root plan_path) := by
  refine (rejecting_attempt _).bind fun opened => ?_
  cases opened with
  | error failure => trivial
  | ok opened =>
    have hchecks : Rejecting Failure.Rejects (runChecks opened.1 plan_path) := by
      refine (rejecting_attempt _).bind fun outcome => ?_
      cases outcome with
      | ok l => trivial
      | error error => trivial
    have hrecheck (l : Locals) : Rejecting Failure.Rejects (recheck opened.1 plan_path l) := by
      unfold recheck
      split
      · refine Script.Within.bind ?_ fun _ => trivial
        refine (rejecting_attempt _).bind fun outcome => ?_
        cases outcome with
        | ok current => trivial
        | error failure => trivial
      · trivial
    have hwrite (l : Locals) (restore : Bool) :
        Rejecting Failure.Rejects (decideWrite opened.1 opened.2 l restore) := by
      refine (rejecting_attempt _).bind fun outcome => ?_
      cases outcome with
      | ok _ => trivial
      | error failure =>
        cases failure with
        | HarnessViolation state check_id reason => trivial
        | raised error => trivial
    refine hchecks.bind fun l => (hrecheck l).bind fun rechecked => ?_
    refine (decideRestore_rejects rechecked.1 rechecked.2).bind fun restored => ?_
    refine (hwrite restored.1 restored.2).bind fun decided => ?_
    refine Script.Within.ite ?_ trivial
    refine (rejecting_attempt _).bind fun outcome => ?_
    cases outcome with
    | ok _ => trivial
    | error error => trivial

/-- A command raises no violation that claims to pass. -/
theorem runCommandLine_rejects (command : Str) (plan : Path) (cwd : Except Exc Path) :
    Rejecting Failure.Rejects (runCommandLine command plan cwd) := by
  refine (Script.Within.ofExcept (orRaise_rejects cwd)).bind fun start => ?_
  refine (findGitRoot_rejects start).bind fun root => .ite (prepare_rejects _ _) (.ite ?_ ?_)
  · exact (evaluate_rejects _ _).bind fun _ => trivial
  · exact Failure.rejects_of_ne

end Refusals

section Results

variable [ByteRuntime] {plan_path : Path} {steps : Trace}

/-- A run of `prepare` that has locked a plan, with the commands of its preflight. -/
structure PreparedRun (plan_path : Path) (steps : Trace) where
  outer : Trace
  run : LockedRun plan_path outer
  opening : Trace
  before_ : Trace
  preflight : Trace
  after_ : Trace
  steps_eq : steps = before_ ++ (preflight ++ after_)
  seen_before : Script.Expands builtin (opening ++ run.before_preflight) before_
  checked : (runPreparePreflight run.resolved_root).replay preflight =
    some (.ok run.environment_checks)
  seen_after : Script.Expands builtin run.after_preflight after_
  environment : ∀ command ∈ environmentCommands,
    ExitedZero run.resolved_root false preflight command

/-- A run of `evaluate` that has passed, with the commands of its checks. -/
structure VerifiedRun (plan_path : Path) (steps : Trace) where
  evaluation : Evaluation
  outer : Trace
  run : PassedRun plan_path outer evaluation
  opening : Trace
  before_ : Trace
  tested : Trace
  after_ : Trace
  steps_eq : steps = before_ ++ (tested ++ after_)
  seen_before : Script.Expands builtin (opening ++ run.before_runner) before_
  checked : (runRequiredChecks run.resolved_root run.requested_ids).replay tested =
    some (.ok run.results)
  seen_after : Script.Expands builtin run.after_runner after_
  environment : ∀ command ∈ environmentCommands,
    ExitedZero run.resolved_root false tested command
  /-- Every required check has a command, which has exited with zero. -/
  commands : ∀ check_id ∈ run.requested_ids, ∃ command,
    checkCommand run.resolved_root check_id = some command ∧
      ExitedZero run.resolved_root true tested command

/-- What an exit status of zero stands for. -/
def Verified : Arguments → Trace → Prop
  | .help _, steps => steps = []
  | .refused _, _ => False
  | .parsed command plan_path, steps =>
    command = "prepare" ∧ Nonempty (PreparedRun plan_path steps) ∨
      command = "evaluate" ∧ Nonempty (VerifiedRun plan_path steps)

omit [ByteRuntime] in
/-- What a component answers is what the function returns or raises. -/
theorem returned_replay {p : HarnessM (List CheckResult)} {answer : Except Failure RawChecks}
    (h : (returned p).replay steps = some (.ok answer)) :
    ∃ r, p.replay steps = some r ∧
      answer = r.map fun checks => .ok (checks.map (·.toCandidate)) := by
  obtain ⟨r, first, second, rfl, hattempt, hpure⟩ := Script.replay_bind_ok.mp h
  obtain ⟨_, hr, hrun⟩ := Script.replay_attempt.mp hattempt
  obtain rfl := Except.ok.inj hr
  obtain ⟨rfl, hanswer⟩ := Script.replay_done.mp hpure
  exact ⟨r, by rwa [List.append_nil], Except.ok.inj hanswer⟩

omit [ByteRuntime] in
/-- Checks that were returned are those of the run. -/
theorem returned_checks {p : HarnessM (List CheckResult)} {checks : List CheckResult}
    (h : (returned p).replay steps = some (.ok (.ok (.ok (checks.map (·.toCandidate)))))) :
    p.replay steps = some (.ok checks) := by
  obtain ⟨r, hrun, hanswer⟩ := returned_replay h
  cases r with
  | error failure => cases hanswer
  | ok found =>
    have hcandidates := Except.ok.inj (Except.ok.inj hanswer)
    rwa [List.map_injective_iff.mpr CheckResult.toCandidate_injective hcandidates]

omit [ByteRuntime] in
/-- A violation that a component answers is one that the function raises. -/
theorem returned_rejects {p : HarnessM (List CheckResult)} (hp : Rejecting Failure.Rejects p)
    {answer : Except Failure RawChecks} (h : (returned p).replay steps = some (.ok answer))
    {failure : Failure} (hanswer : answer = .error failure ∨ answer = .ok (.error failure)) :
    failure.Rejects := by
  obtain ⟨r, hrun, rfl⟩ := returned_replay h
  cases r with
  | error raised =>
    obtain heq | heq := hanswer
    · obtain rfl := Except.error.inj heq
      exact ErrorsIn.error.mp (hp.replay hrun).2
    · cases heq
  | ok checks => obtain heq | heq := hanswer <;> cases heq

/-- The components that the script provides do not claim to pass by a violation. -/
theorem builtin_rejects {outer : Trace} (h : Script.Expands builtin outer steps) :
    ∀ step ∈ outer, RunnerRejects step.op step.answer ∧ PreflightRejects step.op step.answer := by
  refine h.forall_answers
    (A := fun op answer => RunnerRejects op answer ∧ PreflightRejects op answer)
    (fun op answer hnone => ?_) fun op component answer segment hsome hrun => ?_
  · cases op with
    | checkRunner root check_ids => cases hnone
    | preflight root => cases hnone
    | _ => exact ⟨trivial, trivial⟩
  · cases op with
    | checkRunner root check_ids =>
      obtain rfl := Option.some.inj hsome
      have hraised := @returned_rejects _ _ (runRequiredChecks_rejects root check_ids) _ hrun
      refine ⟨?_, trivial⟩
      cases answer with
      | error failure => exact hraised (.inl rfl)
      | ok raw_checks =>
        cases raw_checks with
        | error failure => exact hraised (.inr rfl)
        | ok candidates => trivial
    | preflight root =>
      obtain rfl := Option.some.inj hsome
      have hraised := @returned_rejects _ _ (runPreparePreflight_rejects root) _ hrun
      refine ⟨trivial, ?_⟩
      cases answer with
      | error failure => exact hraised (.inl rfl)
      | ok raw_checks =>
        cases raw_checks with
        | error failure => exact hraised (.inr rfl)
        | ok candidates => trivial
    | _ => cases hsome

/-- Locking the plan raises no violation that claims to pass. -/
theorem lockPlan_rejects (resolved_root plan_path : Path) (initial_snapshot : PlanLock)
    (environment_checks : List CheckResult) : Rejecting Failure.Rejects
      (lockPlan resolved_root plan_path initial_snapshot environment_checks) := by
  refine (sound_observe _ _).rejecting.bind fun seen => ?_
  refine (sound_lift (validatePlanLock_rejects _ _ _)).rejecting.bind fun _ => ?_
  refine (sound_safeEvidencePath _ _).rejecting.bind fun lock_path => ?_
  dsimp only
  generalize planLockPayload (makePlanLock seen.1 seen.2) = payload
  refine .bind (.mapError ((writeJsonAtomic_within _ _).imp fun _ _ => trivial) fun _ _ => trivial)
    fun _ => trivial

/-- As long as the preflight does not claim to pass, no violation of `prepare` does. -/
theorem prepareResolved_meets (resolved_root plan_path : Path) :
    (prepareResolved resolved_root plan_path).Meets PreflightRejects Failure.Rejects
      fun _ => True := by
  refine (Script.Meets.of_within (sound_observe _ _)).bind fun seen _ => ?_
  have hcall : (callPreflight resolved_root).Meets PreflightRejects Failure.Rejects
      (ErrorsIn Failure.Rejects) := by
    intro answer hanswer
    cases answer with
    | error failure => exact hanswer
    | ok raw_checks =>
      rintro failure rfl
      exact hanswer
  refine hcall.bind fun raw_checks hraw => ?_
  refine (Script.Meets.of_within (sound_lift (validatePreflightResults_rejects hraw))).bind
    fun environment_checks _ => ?_
  cases environment_checks.find? (·.state ≠ .PASS) with
  | some check => trivial
  | none => exact .of_within (lockPlan_rejects _ _ _ _)

/-- A run of `prepare` that passes has locked the plan. -/
theorem prepare_passed {root : Path} {checks : List CheckResult}
    (hreplay : (prepare root plan_path).replay steps = some (.ok (.PASS, checks)))
    (hrejects : ∀ step ∈ steps, PreflightRejects step.op step.answer) :
    Nonempty (LockedRun plan_path steps) := by
  obtain hbody | ⟨failure, hbody, hstate⟩ := prepare_replay hreplay
  · obtain ⟨_, hok, -⟩ | ⟨resolved_root, lock_path, opening, rest, rfl, -, hrest⟩ :=
      prepareBody_replay hbody
    · cases hok
    · obtain ⟨run, -⟩ := prepareResolved_replay_pass hrest
      exact ⟨run.prepend opening⟩
  · have hfailure : failure.Rejects := by
      obtain ⟨_, heq, hopen⟩ | ⟨resolved_root, lock_path, opening, rest, rfl, -, hrest⟩ :=
        prepareBody_replay hbody
      · obtain rfl := Except.error.inj heq
        exact ((openPreparation_within root).replay hopen).2 _ rfl
      · have hrest_rejects := (List.forall_mem_append.mp hrejects).2
        exact ((prepareResolved_meets _ _).replay hrest_rejects hrest).1 _ rfl
    exact absurd hstate.symm (failureCheck_state_ne hfailure)

/-- A run that has locked a plan has run the commands of the preflight. -/
theorem LockedRun.prepared {outer opening : Trace} (run : LockedRun plan_path outer)
    (h : Script.Expands builtin (opening ++ outer) steps) :
    Nonempty (PreparedRun plan_path steps) := by
  have hexpands := h
  rw [run.steps_eq, ← List.append_assoc] at hexpands
  obtain ⟨before_, preflight, after_, hsteps, hbefore, hrun, hafter⟩ := hexpands.around rfl
  have hchecked := returned_checks hrun
  exact ⟨{
    outer, run, opening, before_, preflight, after_
    steps_eq := hsteps
    seen_before := hbefore
    checked := hchecked
    seen_after := hafter
    environment := runPreparePreflight_passed (Script.ranIn_of_replay hchecked) run.passed }⟩

/-- A run that has passed has run the commands of all required checks. -/
theorem PassedRun.verified {outer opening : Trace} {evaluation : Evaluation}
    (run : PassedRun plan_path outer evaluation)
    (h : Script.Expands builtin (opening ++ outer) steps) :
    Nonempty (VerifiedRun plan_path steps) := by
  have hexpands := h
  rw [run.steps_eq, ← List.append_assoc] at hexpands
  obtain ⟨before_, tested, after_, hsteps, hbefore, hrun, hafter⟩ := hexpands.around rfl
  have hchecked := returned_checks hrun
  have hcommands {check_id : Str} (hmem : check_id ∈ run.requested_ids) :=
    runRequiredChecks_passed (Script.ranIn_of_replay hchecked) run.passed hmem
  exact ⟨{
    evaluation, outer, run, opening, before_, tested, after_
    steps_eq := hsteps
    seen_before := hbefore
    checked := hchecked
    seen_after := hafter
    environment := (hcommands (gradleTest_required run.requested)).2 rfl
    commands := fun check_id hmem => (hcommands hmem).1 }⟩

/-- Only a state of `PASS` is reported as zero. -/
theorem reportOutcome_zero {terminal : Terminal}
    {outcome : Except Failure (State × List CheckResult)}
    (hrejects : ErrorsIn Failure.Rejects outcome)
    (h : (reportOutcome terminal outcome).status = 0) :
    ∃ checks, outcome = .ok (.PASS, checks) := by
  have hcomplain {printed : List Str} {status : ℕ} {line : Str} (hstatus : status ≠ 0) :
      (complain terminal printed status line).status ≠ 0 := by
    unfold complain
    split
    · exact hstatus
    · exact Nat.one_ne_zero
  have hvalue {state : State} (hstate : state ≠ .PASS) : state.value ≠ 0 := by
    cases state with
    | PASS => exact absurd rfl hstate
    | _ => exact Nat.succ_ne_zero _
  cases outcome with
  | ok result =>
    obtain ⟨state, checks⟩ := result
    rw [reportOutcome] at h
    split at h
    · refine ⟨checks, ?_⟩
      by_cases hstate : state = .PASS
      · rw [hstate]
      · exact absurd h (hvalue hstate)
    · exact absurd h (hcomplain (hvalue nofun))
  | error failure =>
    cases failure with
    | HarnessViolation state check_id reason =>
      have hfailure : (Failure.HarnessViolation state check_id reason).Rejects :=
        ErrorsIn.error.mp hrejects
      exact absurd h (hcomplain (hvalue hfailure))
    | raised error => exact absurd h (hcomplain (hvalue nofun))

/-- A command that exits with zero has locked the plan or passed the candidate. -/
theorem parsed_verified {command : Str} {terminal : Terminal} {report : Report}
    (hreplay : ((main (.parsed command plan_path) terminal).handle builtin).replay steps =
      some (.ok report)) (hzero : report.status = 0) :
    Verified (.parsed command plan_path) steps := by
  obtain ⟨outer, houter, hexpands⟩ := Script.replay_handle hreplay
  obtain ⟨outcome, first, last, rfl, hattempt, hlast⟩ := Script.replay_bind_ok.mp houter
  obtain ⟨_, hr, hrun⟩ := Script.replay_attempt.mp hattempt
  obtain rfl := Except.ok.inj hr
  obtain ⟨rfl, hreport⟩ := Script.replay_done.mp hlast
  obtain rfl := Except.ok.inj hreport
  rw [List.append_nil] at hexpands
  obtain ⟨checks, rfl⟩ := reportOutcome_zero ((runCommandLine_rejects _ _ _).replay hrun).2 hzero
  obtain ⟨start, _, _, rfl, hstart, hfind⟩ := Script.replay_bind_ok.mp hrun
  obtain ⟨rfl, -⟩ := Script.replay_ofExcept.mp hstart
  obtain ⟨root, opening, rest, rfl, -, hrest⟩ := Script.replay_bind_ok.mp hfind
  rw [List.nil_append] at hexpands
  have hrejects : ∀ step ∈ rest, RunnerRejects step.op step.answer ∧
      PreflightRejects step.op step.answer := fun step hstep =>
    builtin_rejects hexpands step (List.mem_append_right _ hstep)
  by_cases hprepare : command = "prepare"
  · rw [if_pos hprepare] at hrest
    obtain ⟨run⟩ := prepare_passed hrest fun step hstep => (hrejects step hstep).2
    exact .inl ⟨hprepare, run.prepared hexpands⟩
  rw [if_neg hprepare] at hrest
  by_cases hevaluate : command = "evaluate"
  · rw [if_pos hevaluate] at hrest
    obtain ⟨evaluation, _, _, rfl, hevaluation, hlast⟩ := Script.replay_bind_ok.mp hrest
    obtain ⟨rfl, hstate⟩ := Script.replay_done.mp hlast
    rw [List.append_nil] at hrejects hexpands
    obtain ⟨parts⟩ := evaluate_passed hevaluation (Prod.mk.inj (Except.ok.inj hstate)).1.symm
      fun step hstep => (hrejects step hstep).1
    exact .inr ⟨hevaluate, parts.run.verified hexpands⟩
  · rw [if_neg hevaluate] at hrest
    cases (Script.replay_throw.mp hrest).2

/-- **Exit status zero** of the command line is given for the help text, and otherwise only to a run
that has locked the plan after its preflight, or has passed the candidate after all its checks: the
commands of each of them have been run, and have exited with zero. -/
theorem main_zero_verified {arguments : Arguments} {terminal : Terminal} {report : Report}
    (hreplay : ((main arguments terminal).handle builtin).replay steps = some (.ok report))
    (hzero : report.status = 0) : Verified arguments steps := by
  cases arguments with
  | help text =>
    obtain ⟨rfl, -⟩ := Script.replay_done.mp hreplay
    rfl
  | refused message =>
    obtain ⟨-, hreport⟩ := Script.replay_done.mp hreplay
    obtain rfl := Except.ok.inj hreport
    obtain ⟨_, hpass⟩ := reportOutcome_zero (ErrorsIn.error.mpr Failure.rejects_of_ne) hzero
    cases hpass
  | parsed command plan_path => exact parsed_verified hreplay hzero

end Results

namespace Sample

/-- A policy whose risk is checked by an oracle. -/
def rawOraclePolicy : Bytes :=
  ["\x7b\"schemaVersion\":1,", "\"knownRisks\":[\"docs\"],", "\"rules\":[\x7b\"id\":\"docs\",",
    "\"patterns\":[\"docs/guide/**\"],", "\"risks\":[\"docs\"]\x7d],",
    "\"protectedPatterns\":[\"docs/guide/policy.md\"],",
    "\"riskChecks\":\x7b\"docs\":[\"oracle.architecture\"]\x7d\x7d"].flatMap Bytes.ofString

/-- What the commands print besides: the root of the repository, and the toolchains. -/
def shellOutput (git : List Str → Bytes) (args : List Str) : Bytes :=
  if args = ["rev-parse", "--show-toplevel"] then Bytes.ofString "/repo\n"
  else if args = ["-q", "javaToolchains"] then Bytes.ofString "Language Version: 17\n"
  else git args

/-- The runtime that reads JSON text everywhere. -/
abbrev shellRuntime : ByteRuntime where
  loads text :=
    match JsonText.loads JsonText.plainHook text with
    | some value => .ok value
    | none => .error ⟨.JSONDecodeError, "Expecting value: line 1 column 1 (char 0)"⟩
  repr := runtime.repr
  format := runtime.format
  executable := runtime.executable
  loadsPairs := textRuntime.loadsPairs
  sha256 := textRuntime.sha256
  decodeReplace := textRuntime.decodeReplace
  isWordChar := textRuntime.isWordChar

/-- A terminal that prints everything. -/
def terminal : Terminal := ⟨.ok root, fun _ => none, none⟩

/-- An invocation on a machine, with the components that the script provides. -/
def invocation (command : Str) (git : List Str → Bytes) (disk : Disk) :
    Trace × Except Failure Report × Disk :=
  ((@main shellRuntime (.parsed command planPath) terminal).handle (@builtin shellRuntime)).exec
    (machine (shellOutput git) idle (.ok passedPreflight)) disk

/-- The candidate is evaluated after the plan has been prepared. -/
def verification : Trace × Except Failure Report × Disk :=
  invocation "evaluate" committedGit (invocation "prepare" git
    (repository.set (riskPolicyPath root) (some (.file rawOraclePolicy)))).2.2

/-- The sample run exits with zero. -/
theorem verification_zero : (verification.2.1.map Report.status).toOption = some 0 := by
  decide +kernel

/-- The sample run is one of `main`. -/
theorem verification_replay : ∃ report : Report,
    ((@main shellRuntime (.parsed "evaluate" planPath) terminal).handle
      (@builtin shellRuntime)).replay verification.1 = some (.ok report) ∧ report.status = 0 := by
  have hreplay := Script.replay_exec
    (machine (shellOutput committedGit) idle (.ok passedPreflight))
    ((@main shellRuntime (.parsed "evaluate" planPath) terminal).handle (@builtin shellRuntime))
    (invocation "prepare" git
      (repository.set (riskPolicyPath root) (some (.file rawOraclePolicy)))).2.2
  change _ = some verification.2.1 at hreplay
  have hzero := verification_zero
  cases hresult : verification.2.1 with
  | error failure =>
    rw [hresult] at hzero
    cases hzero
  | ok report =>
    rw [hresult] at hreplay hzero
    exact ⟨report, hreplay, Option.some.inj hzero⟩

end Sample

/-- The candidate passes, and every command has exited with zero. -/
theorem main_zero_verified_guide :
    ∃ steps, Nonempty (@VerifiedRun Sample.shellRuntime Sample.planPath steps) := by
  obtain ⟨report, hreplay, hzero⟩ := Sample.verification_replay
  obtain ⟨hprepare, -⟩ | ⟨-, hverified⟩ :=
    @main_zero_verified Sample.shellRuntime _ _ _ _ hreplay hzero
  · exact absurd hprepare (by decide)
  · exact ⟨_, hverified⟩

end CoffeeOrder.Harness
