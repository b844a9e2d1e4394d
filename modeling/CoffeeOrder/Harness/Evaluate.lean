import CoffeeOrder.Harness.Migrations
import CoffeeOrder.Harness.PlanLock
import CoffeeOrder.Harness.RequiredChecks

/-!
# The evaluation of a candidate

`evaluate` with all its steps: the removal of the old evaluation, the checks before and
after the runner, the restoration of the plan lock and the two last writes.
-/

namespace CoffeeOrder.Harness

open Kit Python

/-- `Evaluation`. -/
structure Evaluation where
  schema_version : ℤ
  state : State
  base_tip_sha : Option Str
  merge_base_sha : Option Str
  candidate_head_sha : Option Str
  tested_revision_sha : Option Str
  plan_path : Str
  plan_hash : Option Str
  declared_risks : List Str
  detected_risks : List Str
  changed_paths : List Str
  diff_hash : Option Str
  checks : List CheckResult
  deriving DecidableEq

/-- `None` or a value. -/
def optionalJson {α : Type} (toJson : α → Json) : Option α → Json
  | none => .null
  | some a => toJson a

/-- An element of `checks`. -/
def CheckResult.toDict (check : CheckResult) : Json :=
  .obj [("id", .str check.check_id), ("state", .str check.state.name),
    ("reason", .str check.reason), ("command", .arr (check.command.map .str)),
    ("exitCode", optionalJson .int check.exit_code),
    ("durationMs", optionalJson .int check.duration_ms)]

/-- `Evaluation.to_dict`. -/
def Evaluation.toDict (evaluation : Evaluation) : Json :=
  .obj [("schemaVersion", .int evaluation.schema_version), ("state", .str evaluation.state.name),
    ("baseTipSha", optionalJson .str evaluation.base_tip_sha),
    ("mergeBaseSha", optionalJson .str evaluation.merge_base_sha),
    ("candidateHeadSha", optionalJson .str evaluation.candidate_head_sha),
    ("testedRevisionSha", optionalJson .str evaluation.tested_revision_sha),
    ("planPath", .str evaluation.plan_path),
    ("planHash", optionalJson .str evaluation.plan_hash),
    ("declaredRisks", .arr (evaluation.declared_risks.map .str)),
    ("detectedRisks", .arr (evaluation.detected_risks.map .str)),
    ("changedPaths", .arr (evaluation.changed_paths.map .str)),
    ("diffHash", optionalJson .str evaluation.diff_hash),
    ("checks", .arr (evaluation.checks.map (·.toDict)))]

/-- `f"{type(error).__name__}: {error}"`. -/
def describe (error : Exc) : Str := error.type.name ++ ": " ++ error.text

/-- The check that reports a failure. -/
def failureCheck : Failure → CheckResult
  | .HarnessViolation state check_id reason => { check_id, state, reason }
  | .raised error => { check_id := "harness.internal", state := .FAIL, reason := describe error }

/-- The local variables of `evaluate` that its handlers see. -/
structure Locals where
  checks : List CheckResult := []
  plan : Option Plan := none
  context : Option GitContext := none
  lock : Option PlanLock := none
  classification : Option RiskClassification := none
  changed_paths : List Str := []
  diff_hash : Option Str := none

namespace Locals

/-- `checks.append(check)`. -/
def append (l : Locals) (check : CheckResult) : Locals := { l with checks := l.checks ++ [check] }

/-- `checks.append` of a check that passed. -/
def pass (l : Locals) (check_id reason : Str) : Locals :=
  l.append { check_id, state := .PASS, reason }

/-- A step of the body of `try`: what it raises finds the local variables as they are. -/
def during {α : Type} (l : Locals) (p : HarnessM α) : Script (Failure × Locals) Op.Answer α :=
  p.mapError fun failure => (failure, l)

end Locals

/-- `_evaluation_from_values`. -/
def evaluationFromValues (plan_path : Str) (l : Locals) : Evaluation where
  schema_version := 1
  state := aggregateState l.checks
  base_tip_sha := l.context.map (·.base_tip_sha)
  merge_base_sha := l.context.map (·.merge_base_sha)
  candidate_head_sha := l.context.map (·.candidate_head_sha)
  tested_revision_sha := l.context.map (·.tested_revision_sha)
  plan_path := (l.plan.map (·.relative_path)).getD plan_path
  plan_hash := l.plan.map (·.plan_hash)
  declared_risks := (l.plan.map (·.declared_risks)).getD []
  detected_risks := (l.classification.map (·.detected_risks)).getD []
  changed_paths := l.changed_paths
  diff_hash := l.diff_hash
  checks := l.checks

section Scripts

variable [ByteRuntime]

/-- `load_risk_policy`. -/
def loadRiskPolicy (path : Path) : HarnessM RiskPolicy := do
  match ← ask (.readBytes path) with
  | .ok raw => liftM (parseRiskPolicy raw)
  | .error error =>
    if error.isOSError then
      throw (policyError ("risk policy를 읽을 수 없습니다: " ++ error.text))
    else throw (.raised error)

/-- `load_plan`. -/
def loadPlan (root plan_path : Path) (policy : RiskPolicy) : HarnessM Plan := do
  let resolved_root ← resolve root
  let candidate := if plan_path.isAbsolute then plan_path else resolved_root.join plan_path
  let (relative_path, raw) ← Script.mapError (fun error =>
      if error.isOSError || error.isValueError then
        .HarnessViolation .FAIL "plan.path"
          ("plan을 저장소 내부 경로에서 읽을 수 없습니다: " ++ error.text)
      else .raised error) do
    let resolved_plan ← (← ask (.resolve candidate true))
    let relative_path ← resolved_plan.relativeTo resolved_root
    let raw ← (← ask (.readBytes resolved_plan))
    return (relative_path.asPosix, raw)
  liftM (parsePlan raw relative_path policy.known_risks)

/-- `validate_evaluate_clean_state`. -/
def validateEvaluateCleanState (root : Path) (phase : Str) : HarnessM Unit := do
  let dirty_paths ← collectWorktreePaths root
  if dirty_paths ≠ [] then
    throw (.HarnessViolation .REPLAN_REQUIRED "git.clean"
      ("evaluate " ++ phase ++ " worktree가 clean하지 않습니다: " ++ renderPaths dirty_paths))

/-- The path of the risk policy. -/
def riskPolicyPath (root : Path) : Path := (root.child "harness").child "risk-policy.json"

/-- What the check of freshness reads again. -/
structure Identity where
  plan : Plan
  context : GitContext
  changed_paths : List Str
  diff_hash : Str

/-- The body of `try` in `_freshness_check`. -/
def currentIdentity (root plan_path : Path) : HarnessM Identity := do
  validateEvaluateCleanState root "종료"
  let current_policy ← loadRiskPolicy (riskPolicyPath root)
  let current_plan ← loadPlan root plan_path current_policy
  let current_context ← resolveLocalGitContext root current_plan
  let current_changed_paths ← collectLocalChangedPaths root current_context.merge_base_sha
  let current_diff_hash ← computeDiffHash root current_context current_changed_paths
  return ⟨current_plan, current_context, current_changed_paths, current_diff_hash⟩

/-- `plan_identity_checks`. -/
def planIdentityChecks : List Str :=
  ["plan.path", "plan.schema", "plan.scope", "plan.contract-changes", "git.branch"]

/-- The handlers of `_freshness_check`. -/
def freshnessFailure : Failure → CheckResult
  | .HarnessViolation state check_id reason =>
    if check_id = "git.clean" then { check_id, state, reason }
    else {
      check_id := "evidence.freshness"
      state := if check_id ∈ planIdentityChecks ∨ state = .REPLAN_REQUIRED then .REPLAN_REQUIRED
        else state
      reason := "종료 identity를 확인할 수 없습니다: " ++ check_id ++ ": " ++ reason }
  | .raised error =>
    { check_id := "evidence.freshness", state := .FAIL
      reason := "종료 identity 확인 중 오류가 발생했습니다: " ++ describe error }

/-- The labels of what has changed. -/
def changedLabels (initial current : Identity) : List Str :=
  let comparisons : List (Str × Bool) :=
    [("base tip", initial.context.base_tip_sha ≠ current.context.base_tip_sha),
      ("merge-base", initial.context.merge_base_sha ≠ current.context.merge_base_sha),
      ("HEAD", initial.context.candidate_head_sha ≠ current.context.candidate_head_sha),
      ("tested revision",
        initial.context.tested_revision_sha ≠ current.context.tested_revision_sha),
      ("plan path", initial.plan.relative_path ≠ current.plan.relative_path),
      ("plan hash", initial.plan.plan_hash ≠ current.plan.plan_hash),
      ("changed paths", initial.changed_paths ≠ current.changed_paths),
      ("diff hash", initial.diff_hash ≠ current.diff_hash)]
  (comparisons.filter Prod.snd).map Prod.fst

/-- The comparison of `_freshness_check`. -/
def freshnessResult (initial current : Identity) : CheckResult :=
  let changed := changedLabels initial current
  if changed ≠ [] then
    { check_id := "evidence.freshness", state := .REPLAN_REQUIRED
      reason := "검사 중 identity가 변경되었습니다: " ++ Str.join ", " changed }
  else
    { check_id := "evidence.freshness", state := .PASS
      reason :=
        "worktree가 clean하고 plan, base tip, merge-base, HEAD, paths, diff hash가 유지되었습니다." }

/-- `_freshness_check`: its check, and what was read again if that succeeded. -/
def freshnessCheck (root plan_path : Path) (initial : Identity) :
    HarnessM (CheckResult × Option Identity) := do
  match ← Script.attempt (currentIdentity root plan_path) with
  | .ok current => return (freshnessResult initial current, some current)
  | .error failure => return (freshnessFailure failure, none)

/-- The first `try` of `evaluate`. -/
def openEvidence (root : Path) : HarnessM (Path × Path) := do
  let resolved_root ← strictRepositoryRoot root
  return (resolved_root, ← removeStaleEvaluation resolved_root)

/-- The check of `scope.allowed-paths`. -/
def validateScope (changed_paths : List Str) (plan : Plan) : Except Failure Unit :=
  raiseIf (scopeViolations changed_paths plan ≠ []) (.HarnessViolation .REPLAN_REQUIRED
    "scope.allowed-paths"
    ("allowedPaths 밖 변경이 있습니다: " ++ listRepr (scopeViolations changed_paths plan)))

/-- The check of `risk.classification`. -/
def validateClassified (classification : RiskClassification) : Except Failure Unit :=
  raiseIf (classification.unclassified_paths ≠ []) (.HarnessViolation .REPLAN_REQUIRED
    "risk.classification"
    ("미분류 경로가 있습니다: " ++ listRepr classification.unclassified_paths))

/-- `check_runner(resolved_root, requested_ids)`. -/
def callRunner (root : Path) (requested_ids : List Str) : HarnessM RawChecks := do
  liftM (← ask (.checkRunner root requested_ids))

/-- The second `try` of `evaluate`. -/
def evaluateBody (resolved_root plan_path : Path) : Script (Failure × Locals) Op.Answer Locals := do
  let l : Locals := {}
  l.during (validateEvaluateCleanState resolved_root "시작")
  let policy ← l.during (loadRiskPolicy (riskPolicyPath resolved_root))
  let plan ← l.during (loadPlan resolved_root plan_path policy)
  let l := { l with plan := some plan }
  let context ← l.during (resolveLocalGitContext resolved_root plan)
  let l := { l with context := some context }
  let lock_path ← l.during (safeEvidenceLockPath resolved_root)
  let lock ← l.during (loadPlanLock lock_path)
  let l := { l with lock := some lock }
  l.during (liftM (validatePlanLock lock plan context))
  let l := l.pass "plan.lock" "prepare 시점의 plan, branch, base tip, merge-base와 일치합니다."
  let changed_paths ← l.during (collectLocalChangedPaths resolved_root context.merge_base_sha)
  let l := { l with changed_paths }
  let diff_hash ← l.during (computeDiffHash resolved_root context changed_paths)
  let l := { l with diff_hash := some diff_hash }
  l.during (validateExistingMigrationsImmutable resolved_root context changed_paths)
  let l := l.pass "migration.immutable" "기존 Flyway migration 변경이 없습니다."
  l.during (liftM (validateScope changed_paths plan))
  let l := l.pass "scope.allowed-paths" "모든 변경 경로가 plan 범위 안에 있습니다."
  let classification := classifyRisks changed_paths policy plan.relative_path
  let l := { l with classification := some classification }
  l.during (liftM (validateClassified classification))
  let l := l.pass "risk.classification" "모든 변경 경로가 위험 정책으로 분류되었습니다."
  l.during (liftM (validateRiskDeclarations plan classification))
  let l := l.pass "risk.declaration" "감지된 위험이 plan에 선언되었습니다."
  l.during (liftM (validateContractChanges changed_paths plan policy))
  let l := l.pass "trust-root.contract" "보호 경로 변경이 정확한 contractChanges로 선언되었습니다."
  let requested_ids ← l.during (liftM (requiredCheckIds plan classification policy))
  let raw_runner_results ← l.during (callRunner resolved_root requested_ids)
  let (runner_results, runner_error) ←
    l.during (liftM (validateCheckRunnerResults raw_runner_results requested_ids))
  return { l with checks := l.checks ++ runner_results ++ runner_error.toList }

/-- The local variables after the second `try` of `evaluate` and its handlers. -/
def runChecks (resolved_root plan_path : Path) : HarnessM Locals := do
  match ← Script.attempt (evaluateBody resolved_root plan_path) with
  | .ok l => return l
  | .error (failure, l) => return l.append (failureCheck failure)

/-- The check of freshness of `evaluate`, if the first one got as far as the diff hash. -/
def recheck (resolved_root plan_path : Path) (l : Locals) :
    HarnessM (Locals × Option Identity) := do
  match l.plan, l.context, l.diff_hash with
  | some plan, some context, some diff_hash =>
    let (freshness, ending) ←
      freshnessCheck resolved_root plan_path ⟨plan, context, l.changed_paths, diff_hash⟩
    return (l.append freshness, ending)
  | _, _, _ => return (l, none)

/-- Whether `evaluate` restores the lock that it has loaded. Only a violation is handled. -/
def decideRestore (l : Locals) (ending : Option Identity) : HarnessM (Locals × Bool) := do
  let restore (state : State) (reason : Str) : CheckResult :=
    { check_id := "plan.lock.restore", state, reason }
  match l.lock with
  | none => return (l, false)
  | some lock =>
    match ending with
    | none => return (l.append (restore .BLOCKED
        "종료 plan/context를 검증하지 못해 plan lock을 복구하지 않습니다."), false)
    | some current =>
      match validatePlanLock lock current.plan current.context with
      | .ok _ => return (l, true)
      | .error (.HarnessViolation state _ reason) => return (l.append (restore state
          ("stale plan lock을 복구하지 않습니다: " ++ reason)), false)
      | .error (.raised error) => throw (.raised error)

/-- The body of the third `try` of `evaluate`. The lock, if it is to be restored, has to be
where it was. -/
def recheckPaths (resolved_root evaluation_path : Path) (restore : Bool) : HarnessM Unit := do
  let final_evaluation_path ← safeEvidenceEvaluationPath resolved_root
  if final_evaluation_path ≠ evaluation_path then
    throw (evidencePathError "evaluation path가 검사 중 변경되었습니다.")
  if restore then
    let final_lock_path ← safeEvidenceLockPath resolved_root
    if final_lock_path ≠ (evidenceDirectory resolved_root).child lockName then
      throw (evidencePathError "plan lock path가 검사 중 변경되었습니다.")

/-- The third `try` of `evaluate` with its handlers, and `can_write`. -/
def decideWrite (resolved_root evaluation_path : Path) (l : Locals) (restore : Bool) :
    HarnessM (Locals × Bool) := do
  match ← Script.attempt (recheckPaths resolved_root evaluation_path restore) with
  | .ok _ => return (l, true)
  | .error (.HarnessViolation state check_id reason) =>
    return (l.append { check_id, state, reason }, false)
  | .error (.raised error) =>
    return (l.append { check_id := "evidence.path", state := .FAIL
                       reason := "evaluation path 재검사 중 오류가 발생했습니다: " ++ describe error },
      false)

/-- The two last writes. -/
def writeEvidence (resolved_root evaluation_path : Path) (lock : Option PlanLock)
    (evaluation : Evaluation) : Script Exc Op.Answer Unit := do
  if let some lock := lock then
    writeJsonAtomic ((evidenceDirectory resolved_root).child lockName) (planLockPayload lock)
  writeJsonAtomic evaluation_path evaluation.toDict

/-- The end of `evaluate`: the evaluation, which is written if `can_write`. -/
def record (resolved_root evaluation_path : Path) (plan_path : Str) (l : Locals)
    (restore can_write : Bool) : HarnessM Evaluation := do
  let evaluation := evaluationFromValues plan_path l
  if can_write then
    match ← Script.attempt (writeEvidence resolved_root evaluation_path
        (if restore then l.lock else none) evaluation) with
    | .ok _ => return evaluation
    | .error error =>
      return evaluationFromValues plan_path (l.append
        { check_id := "evidence.write", state := .FAIL
          reason := "evaluation을 기록할 수 없습니다: " ++ describe error })
  else return evaluation

/-- `evaluate`. -/
def evaluate (root plan_path : Path) : HarnessM Evaluation := do
  match ← Script.attempt (openEvidence root) with
  | .error failure =>
    return evaluationFromValues plan_path.asPosix (Locals.append {} (failureCheck failure))
  | .ok (resolved_root, evaluation_path) =>
    let l ← runChecks resolved_root plan_path
    let (l, ending) ← recheck resolved_root plan_path l
    let (l, restore) ← decideRestore l ending
    let (l, can_write) ← decideWrite resolved_root evaluation_path l restore
    record resolved_root evaluation_path plan_path.asPosix l restore can_write

section Refusals

omit [ByteRuntime] in
/-- The check of a failure does not pass. -/
theorem failureCheck_state_ne {failure : Failure} (h : failure.Rejects) :
    (failureCheck failure).state ≠ .PASS := by
  cases failure with
  | HarnessViolation state check_id reason => exact h
  | raised error => exact nofun

/-- `load_risk_policy` is sound. -/
theorem sound_loadRiskPolicy (path : Path) : Sound (loadRiskPolicy path) := by
  refine (sound_ask (.readBytes path) trivial).bind fun answer => ?_
  cases answer with
  | ok raw => exact sound_lift (parseRiskPolicy_rejects raw)
  | error error => exact .ite Failure.rejects_of_ne trivial

/-- `load_plan` is sound. -/
theorem sound_loadPlan (root plan_path : Path) (policy : RiskPolicy) :
    Sound (loadPlan root plan_path policy) := by
  refine (sound_resolve root false).bind fun resolved_root => ?_
  refine (Script.Within.mapError (ask_lift_within (.resolve _ true) trivial fun resolved_plan =>
    (Script.Within.ofExcept fun _ _ => trivial).bind fun relative_path =>
      ask_lift_within (.readBytes resolved_plan) trivial fun _ => .pure) fun e _ => ?_).bind
    fun _ => sound_lift (parsePlan_rejects _ _ _)
  split
  · exact Failure.rejects_of_ne
  · trivial

/-- `validate_evaluate_clean_state` is sound. -/
theorem sound_validateEvaluateCleanState (root : Path) (phase : Str) :
    Sound (validateEvaluateCleanState root phase) :=
  (sound_collectWorktreePaths root).bind fun _ => .ite Failure.rejects_of_ne .pure

/-- Reading the identity again is sound. -/
theorem sound_currentIdentity (root plan_path : Path) : Sound (currentIdentity root plan_path) :=
  (sound_validateEvaluateCleanState _ _).bind fun _ => (sound_loadRiskPolicy _).bind fun _ =>
    (sound_loadPlan _ _ _).bind fun _ => (sound_resolveLocalGitContext _ _).bind fun _ =>
      (sound_collectLocalChangedPaths _ _).bind fun _ => (sound_computeDiffHash _ _ _).bind fun _ =>
        .pure

end Refusals

end Scripts

end CoffeeOrder.Harness
