import CoffeeOrder.Harness.FailClosed
import CoffeeOrder.Harness.Records
import CoffeeOrder.Kit.Repetition

/-!
# When the lock is written

The operations of `evaluate` in order, whatever the others do, also to the evidence. The lock is
written only with the content of the one that has been loaded, after the plan and the context have
been read again and agree with it.
-/

namespace CoffeeOrder.Harness

open Kit Python

/-- A temporary file has been created at the path. -/
def MadeTemporary (trace : Trace) (path : Path) : Prop :=
  ∃ directory, (⟨.createTemporary directory, .ok path⟩ : Step Op.Answer) ∈ trace

/-- What was created before more steps was created. -/
theorem MadeTemporary.append {trace : Trace} {path : Path} (h : MadeTemporary trace path)
    (steps : Trace) : MadeTemporary (trace ++ steps) path := by
  obtain ⟨directory, hmem⟩ := h
  exact ⟨directory, List.mem_append_left _ hmem⟩

/-- The steps that create a temporary file and fill it. -/
def fillingSteps (path temporary_path : Path) (content : Bytes) : Trace :=
  [⟨.createTemporary path.parent, .ok temporary_path⟩, ⟨.write temporary_path content, .ok ()⟩,
    ⟨.flush temporary_path, .ok ()⟩, ⟨.fsync temporary_path, .ok ()⟩,
    ⟨.close temporary_path, .ok ()⟩]

section Guard

variable [ByteRuntime]

/-- The lock has been loaded, and after that the plan and the context were read again and agree
with it. Since then the check runner has not been called. -/
def MayRestore (resolved_root plan_path : Path) (trace : Trace) (lock : PlanLock) : Prop :=
  ∃ (loading ending : Trace) (lock_path : Path) (current : Identity), loading ++ ending = trace ∧
    (safeEvidenceLockPath resolved_root).RanIn loading lock_path ∧
    (loadPlanLock lock_path).RanIn loading lock ∧
    (currentIdentity resolved_root plan_path).RanIn ending current ∧
    lock.Agrees current.plan current.context ∧ ∀ step ∈ ending, step.op.Quiet

/-- What may replace a target: an evaluation, or the payload of a lock that may be restored. -/
def MayReplace (plan_path : Path) (trace : Trace) (temporary_path target : Path) : Prop :=
  (∃ resolved_root, target = evaluationPath resolved_root) ∨
    ∃ pre resolved_root lock content, target = lockPath resolved_root ∧
      trace = pre ++ fillingSteps target temporary_path content ∧
      MayRestore resolved_root plan_path pre lock ∧ jsonBytes (planLockPayload lock) = .ok content

/-- When an operation may be issued. -/
def EvidenceAllowed (plan_path : Path) (trace : Trace) : Op → Prop
  | .unlink path _ =>
    MadeTemporary trace path ∨ ∃ resolved_root, path = evaluationPath resolved_root
  | .write path _ | .flush path | .fsync path | .close path => MadeTemporary trace path
  | .replace path target => MadeTemporary trace path ∧ MayReplace plan_path trace path target
  | .mkdir path => ∃ parent : Path, path = parent.child "build" ∨ path = parent.child "harness"
  | _ => True

variable {plan_path : Path} {pre : Trace}

/-- What only looks at the repository may always be issued. -/
theorem Op.Quiet.allowed (trace : Trace) {op : Op} (h : op.Quiet) :
    EvidenceAllowed plan_path trace op := by
  cases op with
  | unlink path missing_ok => exact absurd h id
  | write path content => exact absurd h id
  | flush path => exact absurd h id
  | fsync path => exact absurd h id
  | close path => exact absurd h id
  | replace path target => exact absurd h id
  | mkdir path => exact h
  | _ => trivial

/-- So may a call of the check runner. -/
theorem Op.CallsRunner.allowed (trace : Trace) {op : Op} (h : op.CallsRunner) :
    EvidenceAllowed plan_path trace op := by
  cases op with
  | checkRunner root check_ids => trivial
  | _ => exact absurd h id

end Guard

section Loading

variable [ByteRuntime] {resolved_root plan_path : Path} {steps : Trace} {α β : Type}

/-- The body of `evaluate` after the lock has been loaded. -/
def evaluateLoaded (resolved_root : Path) (policy : RiskPolicy) (plan : Plan) (context : GitContext)
    (lock : PlanLock) : Script (Failure × Locals) Op.Answer Locals := do
  let l : Locals := { plan := some plan, context := some context, lock := some lock }
  l.during (liftM (validatePlanLock lock plan context))
  let l := l.pass "plan.lock" "prepare 시점의 plan, branch, base tip, merge-base와 일치합니다."
  let changed_paths ← l.during (collectLocalChangedPaths resolved_root context.merge_base_sha)
  let l := { l with changed_paths }
  let diff_hash ← l.during (computeDiffHash resolved_root context changed_paths)
  let l := { l with diff_hash := some diff_hash }
  l.during (validateExistingMigrationsImmutable resolved_root context changed_paths)
  let l := l.pass "migration.immutable" "기존 Flyway migration 변경이 없습니다."
  l.during (liftM (validateScope changed_paths plan))
  let l := l.pass "scope.allowed-paths" "모든 변경 경로가 plan 범위 안에 있습니다."
  let classification := classifyRisks changed_paths policy plan.relative_path
  let l := { l with classification := some classification }
  l.during (liftM (validateClassified classification))
  let l := l.pass "risk.classification" "모든 변경 경로가 위험 정책으로 분류되었습니다."
  l.during (liftM (validateRiskDeclarations plan classification))
  let l := l.pass "risk.declaration" "감지된 위험이 plan에 선언되었습니다."
  l.during (liftM (validateContractChanges changed_paths plan policy))
  let l := l.pass "trust-root.contract" "보호 경로 변경이 정확한 contractChanges로 선언되었습니다."
  let requested_ids ← l.during (liftM (requiredCheckIds plan classification policy))
  let raw_runner_results ← l.during (callRunner resolved_root requested_ids)
  let (runner_results, runner_error) ←
    l.during (liftM (validateCheckRunnerResults raw_runner_results requested_ids))
  return { l with checks := l.checks ++ runner_results ++ runner_error.toList }

/-- The body of `evaluate` loads the lock of the candidate and goes on with it. -/
theorem evaluateBody_eq (resolved_root plan_path : Path) :
    evaluateBody resolved_root plan_path = (do
      let l : Locals := {}
      l.during (validateEvaluateCleanState resolved_root "시작")
      let policy ← l.during (loadRiskPolicy (riskPolicyPath resolved_root))
      let plan ← l.during (loadPlan resolved_root plan_path policy)
      let l := { l with plan := some plan }
      let context ← l.during (resolveLocalGitContext resolved_root plan)
      let l := { l with context := some context }
      let lock_path ← l.during (safeEvidenceLockPath resolved_root)
      let lock ← l.during (loadPlanLock lock_path)
      evaluateLoaded resolved_root policy plan context lock) := rfl

/-- A run of the body that has loaded the lock. -/
structure BodyLoaded (resolved_root plan_path : Path) (steps : Trace)
    (r : Except (Failure × Locals) Locals) where
  policy : RiskPolicy
  plan : Plan
  context : GitContext
  lock_path : Path
  lock : PlanLock
  cleaning : Trace
  opening : Trace
  planning : Trace
  resolving : Trace
  locating : Trace
  loading : Trace
  rest : Trace
  steps_eq : steps = cleaning ++ (opening ++ (planning ++ (resolving ++ (locating ++
    (loading ++ rest)))))
  clean : (validateEvaluateCleanState resolved_root "시작").replay cleaning = some (.ok ())
  policy_read : (loadRiskPolicy (riskPolicyPath resolved_root)).replay opening = some (.ok policy)
  plan_read : (loadPlan resolved_root plan_path policy).replay planning = some (.ok plan)
  resolved : (resolveLocalGitContext resolved_root plan).replay resolving = some (.ok context)
  located : (safeEvidenceLockPath resolved_root).replay locating = some (.ok lock_path)
  lock_read : (loadPlanLock lock_path).replay loading = some (.ok lock)
  judged : (evaluateLoaded resolved_root policy plan context lock).replay rest = some r

/-- Nothing that follows the load changes the lock among the local variables. -/
theorem evaluateLoaded_lock {policy : RiskPolicy} {plan : Plan} {context : GitContext}
    {lock : PlanLock} :
    (evaluateLoaded resolved_root policy plan context lock).Meets (fun _ _ => True)
      (fun error => error.2.lock = some lock) (fun l => l.lock = some lock) := by
  have hduring {α : Type} {l : Locals} (hl : l.lock = some lock) (p : HarnessM α) :
      (l.during p).Meets (fun _ _ => True) (fun error => error.2.lock = some lock)
        fun _ => True := (Script.Meets.anything p).mapError fun _ _ => hl
  refine (hduring rfl _).bind fun _ _ => (hduring rfl _).bind fun _ _ => ?_
  refine (hduring rfl _).bind fun _ _ => (hduring rfl _).bind fun _ _ => ?_
  refine (hduring rfl _).bind fun _ _ => (hduring rfl _).bind fun _ _ => ?_
  refine (hduring rfl _).bind fun _ _ => (hduring rfl _).bind fun _ _ => ?_
  refine (hduring rfl _).bind fun _ _ => (hduring rfl _).bind fun _ _ => ?_
  exact (hduring rfl _).bind fun _ _ => rfl

/-- The local variables after the handlers of the body. -/
def Locals.handled : Except (Failure × Locals) Locals → Locals
  | .ok l => l
  | .error error => error.2.append (failureCheck error.1)

omit [ByteRuntime] in
/-- The handlers add a check at most. -/
theorem Locals.handled_lock (r : Except (Failure × Locals) Locals) :
    (Locals.handled r).lock = (Locals.after r).lock := by
  cases r with
  | ok l => rfl
  | error error => rfl

/-- The lock that was loaded is among the local variables at the end. -/
theorem BodyLoaded.lock_eq {r : Except (Failure × Locals) Locals}
    (loaded : BodyLoaded resolved_root plan_path steps r) :
    (Locals.handled r).lock = some loaded.lock := by
  have hkept := evaluateLoaded_lock.replay (fun _ _ => trivial) loaded.judged
  rw [Locals.handled_lock]
  cases r with
  | ok l => exact hkept.2 l rfl
  | error error => exact hkept.1 error rfl

/-- The lock has been found and loaded among the steps. -/
theorem BodyLoaded.ran {r : Except (Failure × Locals) Locals}
    (loaded : BodyLoaded resolved_root plan_path steps r) :
    (safeEvidenceLockPath resolved_root).RanIn steps loaded.lock_path ∧
      (loadPlanLock loaded.lock_path).RanIn steps loaded.lock := by
  have hsteps := loaded.steps_eq
  exact ⟨⟨loaded.cleaning ++ loaded.opening ++ loaded.planning ++ loaded.resolving,
      loaded.locating, loaded.loading ++ loaded.rest, by simpa using hsteps, loaded.located⟩,
    loaded.cleaning ++ loaded.opening ++ loaded.planning ++ loaded.resolving ++ loaded.locating,
      loaded.loading, loaded.rest, by simpa using hsteps, loaded.lock_read⟩

end Loading

section Order

variable [ByteRuntime] {resolved_root plan_path : Path} {steps pre : Trace} {l l' : Locals}

omit [ByteRuntime] in
/-- More checks leave the lock as it is. -/
theorem Locals.Grows.lock (h : l.Grows l') : l'.lock = l.lock := by
  obtain rfl | ⟨check, rfl⟩ := h
  · rfl
  · rfl

/-- The operation is quiet or removes an evaluation. -/
def Op.Opening (op : Op) : Prop := op.Quiet ∨ ∃ found, op = .unlink (evaluationPath found) false

/-- They may always be issued. -/
theorem Op.Opening.allowed (trace : Trace) (op : Op) (h : op.Opening) :
    EvidenceAllowed plan_path trace op := by
  obtain hquiet | ⟨found, rfl⟩ := h
  · exact hquiet.allowed trace
  · exact .inr ⟨found, rfl⟩

omit [ByteRuntime] in
/-- Removing a file returns its path. -/
theorem removeStaleEvidence_meets (path : Path) (label : Str) :
    (removeStaleEvidence path label).Meets (fun _ _ => True) (fun _ => True) (· = path) := by
  refine meets_ask fun status _ => ?_
  cases status with
  | error error => exact .ite rfl trivial
  | ok path_status =>
    refine .ite trivial (meets_ask fun removed _ => ?_)
    cases removed with
    | ok _ => rfl
    | error error => trivial

end Order

section Changes

variable {foreign : Disk → Disk → Prop} {trace : Trace} {disk d₁ d₂ : Disk}

variable [ByteRuntime] {plan_path : Path}

end Changes

section Passing

variable [ByteRuntime] {root plan_path : Path} {steps : Trace} {evaluation : Evaluation}

/-- The parts of a run that passes, whatever the check runner raises. -/
structure PassingRun (root plan_path : Path) (steps : Trace) (evaluation : Evaluation) where
  resolved_root : Path
  evaluation_path : Path
  outcome : Except (Failure × Locals) Locals
  l : Locals
  current : Identity
  opening : Trace
  checking : Trace
  rechecking : Trace
  locating : Trace
  writing : Trace
  steps_eq : steps = opening ++ (checking ++ (rechecking ++ (locating ++ writing)))
  opened : (openEvidence root).replay opening = some (.ok (resolved_root, evaluation_path))
  loaded : BodyLoaded resolved_root plan_path checking outcome
  rechecked : (recheck resolved_root plan_path (Locals.handled outcome)).replay rechecking =
    some (.ok (l, some current))
  lock_eq : l.lock = some loaded.lock
  agrees : validatePlanLock loaded.lock current.plan current.context = .ok ()
  located : (recheckPaths resolved_root evaluation_path true).replay locating = some (.ok ())
  evaluation_eq : evaluation = evaluationFromValues plan_path.asPosix l
  written : (writeEvidence resolved_root evaluation_path (some loaded.lock) evaluation).replay
    writing = some (.ok ())

variable {foreign : Disk → Disk → Prop} {disk disk' : Disk}

/-- A file of the lock that is loaded as this lock. -/
def Loads (path : Path) (disk : Disk) (lock : PlanLock) : Prop :=
  ∃ raw, disk path = some (.file raw) ∧
    (loadPlanLock path).replay [⟨.readBytes path, .ok raw⟩] = some (.ok lock)

/-- A recorded lock is loaded. -/
theorem Recorded.loads {resolved_root : Path} {lock : PlanLock}
    (h : Recorded resolved_root disk lock) : Loads (lockPath resolved_root) disk lock := by
  obtain ⟨raw, hraw, hparsed⟩ := h
  refine ⟨raw, hraw, Script.replay_ask.mpr ⟨_, [], rfl, ?_⟩⟩
  exact Script.replay_ofExcept.mpr ⟨rfl, hparsed.symm⟩

end Passing

end CoffeeOrder.Harness
