import CoffeeOrder.Harness.PassedRuns
import CoffeeOrder.Kit.Once

/-!
# Evaluations that fail closed

The check runner is called at most once in a run of `evaluate`. What it raises as a violation is
reported with the state that it carries, so a run that returns `PASS` stands for a passing
candidate exactly if the runner has raised no violation with that state.
-/

namespace CoffeeOrder.Harness

open Kit Python

/-- The operation is a call of the check runner. -/
def Op.CallsRunner : Op → Prop
  | .checkRunner _ _ => True
  | _ => False

/-- Quiet operations do not call the check runner. -/
theorem Op.Quiet.not_callsRunner {op : Op} (h : op.Quiet) : ¬op.CallsRunner := by
  cases op with
  | checkRunner root check_ids => exact h.elim
  | _ => exact id

/-- Removing a file does not either. -/
theorem Op.Removing.not_callsRunner {op : Op} (h : op.Removing) : ¬op.CallsRunner := by
  obtain hquiet | ⟨path, rfl⟩ := h
  · exact hquiet.not_callsRunner
  · exact id

/-- Nor does writing one. -/
theorem WriteOp.not_callsRunner {path : Path} {content : Except Exc Bytes} {op : Op}
    (h : WriteOp path content op) : ¬op.CallsRunner := by
  cases op with
  | checkRunner root check_ids => exact h.elim
  | _ => exact id

/-- What is no call of the check runner does not claim to pass. -/
theorem RunnerRejects.of_not_callsRunner {op : Op} {answer : op.Answer} (h : ¬op.CallsRunner) :
    RunnerRejects op answer := by
  cases op with
  | checkRunner root check_ids => exact absurd trivial h
  | _ => trivial

section Once

variable [ByteRuntime] {l : Locals} {α : Type}

omit [ByteRuntime] in
/-- A sound part of the body is quiet. -/
theorem during_quiet {p : HarnessM α} (hp : Sound p) :
    (l.during p).Within Op.Quiet fun _ => True :=
  hp.mapError fun _ _ => trivial

omit [ByteRuntime] in
/-- So is a part of the body that asks nothing. -/
theorem during_lift_quiet (x : Except Failure α) :
    (l.during (liftM x)).Within Op.Quiet fun _ => True :=
  (Script.Within.ofExcept (P := fun _ => True) fun _ _ => trivial).mapError fun _ _ => trivial

/-- The body calls the check runner at most once, and does nothing else but read. -/
theorem evaluateBody_once (resolved_root plan_path : Path) :
    (evaluateBody resolved_root plan_path).Once Op.Quiet Op.CallsRunner := by
  refine (during_quiet (sound_validateEvaluateCleanState _ _)).bind_once fun _ => ?_
  refine (during_quiet (sound_loadRiskPolicy _)).bind_once fun policy => ?_
  refine (during_quiet (sound_loadPlan _ _ _)).bind_once fun plan => ?_
  refine (during_quiet (sound_resolveLocalGitContext _ _)).bind_once fun context => ?_
  refine (during_quiet (sound_safeEvidencePath _ _)).bind_once fun lock_path => ?_
  refine (during_quiet (sound_loadPlanLock _)).bind_once fun lock => ?_
  refine (during_lift_quiet _).bind_once fun _ => ?_
  refine (during_quiet (sound_collectLocalChangedPaths _ _)).bind_once fun changed_paths => ?_
  refine (during_quiet (sound_computeDiffHash _ _ _)).bind_once fun diff_hash => ?_
  refine (during_quiet (sound_validateExistingMigrationsImmutable _ _ _)).bind_once fun _ => ?_
  refine (during_lift_quiet _).bind_once fun _ => ?_
  refine (during_lift_quiet _).bind_once fun _ => ?_
  refine (during_lift_quiet _).bind_once fun _ => ?_
  refine (during_lift_quiet _).bind_once fun _ => ?_
  refine (during_lift_quiet _).bind_once fun requested_ids => ?_
  refine .inr ⟨trivial, fun answer => ?_⟩
  refine (during_lift_quiet answer).bind fun raw_checks => ?_
  exact (during_lift_quiet _).bind fun found => .pure

/-- Its handlers do nothing more. -/
theorem runChecks_once (resolved_root plan_path : Path) :
    (runChecks resolved_root plan_path).Once Op.Quiet Op.CallsRunner := by
  refine (evaluateBody_once _ _).attempt.bind_within fun outcome => ?_
  cases outcome with
  | ok l => exact .pure
  | error error => exact .pure

/-- The check of freshness only reads. -/
theorem recheck_quiet (resolved_root plan_path : Path) (l : Locals) :
    (recheck resolved_root plan_path l).Within Op.Quiet fun _ => True := by
  unfold recheck
  split
  · refine .bind (.bind (sound_currentIdentity _ _).attempt fun outcome => ?_) fun _ => .pure
    cases outcome with
    | ok current => exact .pure
    | error failure => exact .pure
  · exact .pure

omit [ByteRuntime] in
/-- The decision about the lock asks nothing. -/
theorem decideRestore_quiet (l : Locals) (ending : Option Identity) :
    (decideRestore l ending).Within Op.Quiet fun _ => True := by
  unfold decideRestore
  split
  · exact .pure
  · split
    · exact .pure
    · split
      · exact .pure
      · exact .pure
      · trivial

/-- The decision about the write only looks at the evidence. -/
theorem decideWrite_quiet (resolved_root evaluation_path : Path) (l : Locals) (restore : Bool) :
    (decideWrite resolved_root evaluation_path l restore).Within Op.Quiet fun _ => True := by
  refine .bind (sound_recheckPaths _ _ _).attempt fun outcome => ?_
  cases outcome with
  | ok _ => exact .pure
  | error failure =>
    cases failure with
    | HarnessViolation state check_id reason => exact .pure
    | raised error => exact .pure

omit [ByteRuntime] in
/-- Writing the evidence calls nobody. -/
theorem writeEvidence_within (resolved_root evaluation_path : Path) (lock : Option PlanLock)
    (evaluation : Evaluation) :
    (writeEvidence resolved_root evaluation_path lock evaluation).Within
      (fun op => ¬op.CallsRunner) fun _ => True := by
  have hwrite (path : Path) (payload : Json) :
      (writeJsonAtomic path payload).Within (fun op => ¬op.CallsRunner) fun _ => True :=
    (writeJsonAtomic_within path payload).imp fun _ => WriteOp.not_callsRunner
  unfold writeEvidence
  cases lock with
  | none => exact hwrite _ _
  | some lock => exact (hwrite _ _).bind fun _ => hwrite _ _

omit [ByteRuntime] in
/-- Nor does the end of `evaluate`. -/
theorem record_within (resolved_root evaluation_path : Path) (plan_path : Str) (l : Locals)
    (restore can_write : Bool) :
    (record resolved_root evaluation_path plan_path l restore can_write).Within
      (fun op => ¬op.CallsRunner) fun _ => True := by
  refine .ite (.bind (writeEvidence_within _ _ _ _).attempt fun outcome => ?_) .pure
  cases outcome with
  | ok _ => exact .pure
  | error error => exact .pure

/-- In a run of `evaluate` the check runner is called at most once. -/
theorem evaluate_once (root plan_path : Path) :
    (evaluate root plan_path).Once (fun op => ¬op.CallsRunner) Op.CallsRunner := by
  have hquiet {α : Type} {p : HarnessM α} (hp : p.Within Op.Quiet fun _ => True) :
      p.Within (fun op => ¬op.CallsRunner) fun _ => True :=
    hp.imp fun _ => Op.Quiet.not_callsRunner
  have hopen : (openEvidence root).Within (fun op => ¬op.CallsRunner) Failure.Rejects :=
    (openEvidence_within root).imp fun _ => Op.Removing.not_callsRunner
  refine (hopen.attempt (Q := fun _ => True)).bind_once fun outcome => ?_
  cases outcome with
  | error failure => trivial
  | ok opened =>
    obtain ⟨resolved_root, evaluation_path⟩ := opened
    have hchecks := (runChecks_once resolved_root plan_path).imp
      fun _ => Op.Quiet.not_callsRunner
    refine hchecks.bind_within fun l => ?_
    refine (hquiet (recheck_quiet _ _ l)).bind fun found => ?_
    refine (hquiet (decideRestore_quiet _ _)).bind fun restored => ?_
    refine (hquiet (decideWrite_quiet _ _ _ _)).bind fun decided => ?_
    exact record_within _ _ _ _ _ _

end Once

section Results

variable [ByteRuntime] {root plan_path : Path} {steps : Trace} {evaluation : Evaluation}

/-- The evaluation stands for a candidate of this repository that has passed: among the steps
everything was seen that a passing run has to see, and the runner has answered with the results of
the required checks and of the preflight. -/
def Justified (root plan_path : Path) (steps : Trace) (evaluation : Evaluation) : Prop :=
  ∃ run : PassedRun plan_path steps evaluation,
    (strictRepositoryRoot root).RanIn steps run.resolved_root ∧
    ∀ check_id, check_id ∈ run.results.map (·.check_id) ↔
      check_id ∈ run.requested_ids ∨ check_id ∈ requiredPreflightCheckIds

/-- In a run with results of the check runner, it has not claimed to pass. -/
theorem PassedRun.rejects (run : PassedRun plan_path steps evaluation)
    (hreplay : (evaluate root plan_path).replay steps = some (.ok evaluation)) :
    ∀ step ∈ steps, RunnerRejects step.op step.answer := by
  intro step hstep
  by_cases hcalls : step.op.CallsRunner
  · -- the call with the results is the only one
    have hcalled : (⟨.checkRunner run.resolved_root run.requested_ids,
        .ok (.ok (run.results.map (·.toCandidate)))⟩ : Step Op.Answer) ∈ steps :=
      (congrArg (_ ∈ ·) run.steps_eq).mpr
        (List.mem_append_right run.before_runner List.mem_cons_self)
    obtain rfl := (evaluate_once root plan_path).replay_unique hreplay hstep (not_not.mpr hcalls)
      hcalled (not_not.mpr trivial)
    trivial
  · exact .of_not_callsRunner hcalls

/-- **Fail-closed evaluation.** Whatever Git, the file system and the check runner answer: a run of
`evaluate` that returns `PASS` stands for a candidate that has passed if and only if the check
runner has raised no violation with the state `PASS`. -/
theorem evaluate_fail_closed_iff
    (hreplay : (evaluate root plan_path).replay steps = some (.ok evaluation))
    (hpass : evaluation.state = .PASS) :
    Justified root plan_path steps evaluation ↔
      ∀ step ∈ steps, RunnerRejects step.op step.answer := by
  constructor
  · rintro ⟨run, -, -⟩
    exact run.rejects hreplay
  · intro hrejects
    obtain ⟨parts⟩ := evaluate_passed hreplay hpass hrejects
    have hgradle := gradleTest_required parts.run.requested
    refine ⟨parts.run, ?_, fun check_id => ?_⟩
    · obtain ⟨resolved_root, hroot, hremoved⟩ := (Script.ranIn_of_replay parts.opened).bind
      obtain ⟨evaluation_path, -, hopened⟩ := hremoved.bind
      obtain ⟨rfl, -⟩ := Prod.mk.inj hopened.of_pure
      have hsteps := congrArg ((strictRepositoryRoot root).RanIn · parts.run.resolved_root)
        parts.steps_eq
      exact hsteps.mpr (hroot.append_right _)
    · rw [parts.run.complete.ids_exact]
      exact or_congr_right (and_iff_right hgradle)

end Results

namespace Sample

/-- A check runner that raises a violation with the state `PASS`. -/
def claimingRunner (disk : Disk) : Except Failure RawChecks × Disk :=
  (.error (.HarnessViolation .PASS "gradle.test" "done"), disk)

/-- The run of `evaluate` with that runner. -/
def claimedEvaluation : Trace × Except Failure Evaluation × Disk :=
  (@evaluate textRuntime root planPath).exec
    (machine committedGit claimingRunner (.ok passedPreflight))
    (preparation (.ok passedPreflight)).2.2

/-- It returns `PASS`. -/
theorem claimedEvaluation_replay :
    ∃ found, (@evaluate textRuntime root planPath).replay claimedEvaluation.1 =
      some (.ok found) ∧ found.state = .PASS := by
  have hreplay := Script.replay_exec (machine committedGit claimingRunner (.ok passedPreflight))
    (@evaluate textRuntime root planPath) (preparation (.ok passedPreflight)).2.2
  change _ = some claimedEvaluation.2.1 at hreplay
  have hpasses : (claimedEvaluation.2.1.map (·.state)).toOption = some State.PASS := by
    decide +kernel
  cases hresult : claimedEvaluation.2.1 with
  | error failure =>
    rw [hresult] at hpasses
    cases hpasses
  | ok found =>
    rw [hresult] at hpasses hreplay
    exact ⟨found, hreplay, Option.some.inj hpasses⟩

/-- The runner has returned nothing. -/
theorem claimedEvaluation_answers : ∀ step ∈ claimedEvaluation.1, ∀ root check_ids raw_checks,
    step ≠ ⟨.checkRunner root check_ids, .ok raw_checks⟩ := by
  refine Script.exec_answers (A := fun op answer => ∀ root check_ids raw_checks,
    (⟨op, answer⟩ : Step Op.Answer) ≠ ⟨.checkRunner root check_ids, .ok raw_checks⟩) ?_ _ _
  intro disk op root check_ids raw_checks heq
  cases op with
  | checkRunner root' check_ids' => cases heq
  | _ => cases heq

end Sample

/-- The evaluation of a changed guide passes, and stands for the guide. -/
theorem evaluate_fail_closed_iff_guide :
    ∃ steps evaluation, evaluation.changed_paths = Sample.changedGuide ∧
      @Justified Sample.textRuntime Sample.root Sample.planPath steps evaluation := by
  obtain ⟨found, hreplay, hstate, hpaths⟩ := Sample.evaluation_replay
  exact ⟨_, found, hpaths, (@evaluate_fail_closed_iff Sample.textRuntime _ _ _ _ hreplay
    hstate).mpr Sample.evaluation_rejects⟩

/-- Not for every check runner: one that raises a violation with the state `PASS` passes without
any result. -/
theorem not_evaluate_fail_closed :
    ¬∀ (_ : ByteRuntime) (root plan_path : Path) (steps : Trace) (evaluation : Evaluation),
      (evaluate root plan_path).replay steps = some (.ok evaluation) →
      evaluation.state = .PASS → Justified root plan_path steps evaluation := by
  intro hclaim
  let _ := Sample.textRuntime
  obtain ⟨found, hreplay, hstate⟩ := Sample.claimedEvaluation_replay
  obtain ⟨run, -, -⟩ := hclaim Sample.textRuntime _ _ _ _ hreplay hstate
  have hcalled := (congrArg (_ ∈ ·) run.steps_eq).mpr
    (List.mem_append_right run.before_runner List.mem_cons_self)
  exact Sample.claimedEvaluation_answers _ hcalled _ _ _ rfl

end CoffeeOrder.Harness
