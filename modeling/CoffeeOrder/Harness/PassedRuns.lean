import CoffeeOrder.Harness.Prepare

/-!
# The runs of an evaluation that pass

`evaluate` has three `try` blocks, an optional check of freshness and two writes that may fail
after the state was computed. A run of it that returns `PASS` has gone through all of them: it
has seen a clean candidate that the lock, the migrations, the plan and the policy accept, got
exactly the results that it asked for, seen the same candidate again and written its evidence.
-/

namespace CoffeeOrder.Harness

open Kit Python

/-- A violation that the check runner raises, in the call or while its results are collected,
does not claim to pass. -/
def RunnerRejects : (op : Op) → op.Answer → Prop
  | .checkRunner _ _, .error failure | .checkRunner _ _, .ok (.error failure) => failure.Rejects
  | _, _ => True

/-- Nothing that the check of freshness compares has changed. -/
structure SameIdentity (initial current : Identity) : Prop where
  base_tip_sha : current.context.base_tip_sha = initial.context.base_tip_sha
  merge_base_sha : current.context.merge_base_sha = initial.context.merge_base_sha
  candidate_head_sha : current.context.candidate_head_sha = initial.context.candidate_head_sha
  tested_revision_sha : current.context.tested_revision_sha = initial.context.tested_revision_sha
  plan_path : current.plan.relative_path = initial.plan.relative_path
  plan_hash : current.plan.plan_hash = initial.plan.plan_hash
  changed_paths : current.changed_paths = initial.changed_paths
  diff_hash : current.diff_hash = initial.diff_hash

/-- **The comparison** of the check of freshness is exact. -/
theorem changedLabels_eq_nil {initial current : Identity} :
    changedLabels initial current = [] ↔ SameIdentity initial current := by
  rw [changedLabels, List.map_eq_nil_iff, List.filter_eq_nil_iff]
  simp only [List.forall_mem_cons, List.not_mem_nil, decide_eq_true_eq, not_not, ne_eq,
    false_implies, implies_true, and_true]
  exact ⟨fun ⟨h1, h2, h3, h4, h5, h6, h7, h8⟩ =>
      ⟨h1.symm, h2.symm, h3.symm, h4.symm, h5.symm, h6.symm, h7.symm, h8.symm⟩,
    fun ⟨h1, h2, h3, h4, h5, h6, h7, h8⟩ =>
      ⟨h1.symm, h2.symm, h3.symm, h4.symm, h5.symm, h6.symm, h7.symm, h8.symm⟩⟩

section Seen

variable [ByteRuntime]

/-- Among the steps everything was read that a candidate has to satisfy, and it was satisfied. -/
structure Accepted (resolved_root plan_path : Path) (steps : Trace) (policy : RiskPolicy)
    (candidate : Identity) (lock : PlanLock) : Prop where
  clean : (collectWorktreePaths resolved_root).RanIn steps []
  policy_read : (loadRiskPolicy (riskPolicyPath resolved_root)).RanIn steps policy
  plan_read : (loadPlan resolved_root plan_path policy).RanIn steps candidate.plan
  resolved : (resolveLocalGitContext resolved_root candidate.plan).RanIn steps candidate.context
  lock_read : ∃ lock_path, (safeEvidenceLockPath resolved_root).RanIn steps lock_path ∧
    (loadPlanLock lock_path).RanIn steps lock
  lock_agrees : lock.Agrees candidate.plan candidate.context
  changed : (collectLocalChangedPaths resolved_root candidate.context.merge_base_sha).RanIn steps
    candidate.changed_paths
  hashed : (computeDiffHash resolved_root candidate.context candidate.changed_paths).RanIn steps
    candidate.diff_hash
  /-- No migration of the merge base is among the mutations. -/
  immutable : ∃ base committed cached unstaged,
    (nulPaths resolved_root (baseMigrationArgs candidate.context.merge_base_sha)).RanIn steps base ∧
    (nameStatus resolved_root
      (committedMutationArgs candidate.context.merge_base_sha)).RanIn steps committed ∧
    (nameStatus resolved_root cachedMutationArgs).RanIn steps cached ∧
    (nameStatus resolved_root unstagedMutationArgs).RanIn steps unstaged ∧
    ∀ path ∈ base, path ∉ committed ++ cached ++ unstaged
  /-- Every changed path but the plan's own is allowed. -/
  allowed : ∀ path ∈ candidate.changed_paths, path ≠ candidate.plan.relative_path →
    PathAllowed policy candidate.plan path

/-- What has been seen in a run of `evaluate` that returns `PASS`. -/
structure PassedRun (plan_path : Path) (steps : Trace) (evaluation : Evaluation) where
  resolved_root : Path
  policy : RiskPolicy
  candidate : Identity
  lock : PlanLock
  requested_ids : List Str
  results : List CheckResult
  ending : Identity
  before_runner : Trace
  after_runner : Trace
  steps_eq : steps = before_runner ++ ⟨.checkRunner resolved_root requested_ids,
    .ok (.ok (results.map (·.toCandidate)))⟩ :: after_runner
  accepted : Accepted resolved_root plan_path before_runner policy candidate lock
  requested : requiredCheckIds candidate.plan
    (classifyRisks candidate.changed_paths policy candidate.plan.relative_path) policy =
      .ok requested_ids
  /-- There is exactly one valid result for each id. -/
  complete : CompleteResults results requested_ids
  passed : ∀ check ∈ results, check.state = .PASS
  clean_again : (collectWorktreePaths resolved_root).RanIn after_runner []
  reread : (currentIdentity resolved_root plan_path).RanIn after_runner ending
  unchanged : SameIdentity candidate ending
  lock_agrees_again : lock.Agrees ending.plan ending.context
  recorded : ∃ evaluation_path,
    (writeEvidence resolved_root evaluation_path (some lock) evaluation).RanIn after_runner ()
  base_tip_sha : evaluation.base_tip_sha = some candidate.context.base_tip_sha
  merge_base_sha : evaluation.merge_base_sha = some candidate.context.merge_base_sha
  candidate_head_sha : evaluation.candidate_head_sha = some candidate.context.candidate_head_sha
  plan_path_eq : evaluation.plan_path = candidate.plan.relative_path
  plan_hash : evaluation.plan_hash = some candidate.plan.plan_hash
  changed_paths : evaluation.changed_paths = candidate.changed_paths
  diff_hash : evaluation.diff_hash = some candidate.diff_hash
  /-- The evaluation reports every result. -/
  reported : results ⊆ evaluation.checks

/-- A run of `evaluate` that passes, with the parts that read and write the lock. -/
structure PassedParts (root plan_path : Path) (steps : Trace) (evaluation : Evaluation) where
  run : PassedRun plan_path steps evaluation
  evaluation_path : Path
  l : Locals
  opening : Trace
  checking : Trace
  deciding : Trace
  writing : Trace
  steps_eq : steps = opening ++ (checking ++ (deciding ++ writing))
  opened : (openEvidence root).replay opening = some (.ok (run.resolved_root, evaluation_path))
  checked : (runChecks run.resolved_root plan_path).replay checking = some (.ok l)
  lock_eq : l.lock = some run.lock
  written : (writeEvidence run.resolved_root evaluation_path (some run.lock) evaluation).replay
    writing = some (.ok ())

end Seen

section Refusals

variable [ByteRuntime]

/-- What was accepted in a trace was accepted in it after more steps. -/
theorem Accepted.append_left {resolved_root plan_path : Path} {steps : Trace} {policy : RiskPolicy}
    {candidate : Identity} {lock : PlanLock}
    (h : Accepted resolved_root plan_path steps policy candidate lock) (opening : Trace) :
    Accepted resolved_root plan_path (opening ++ steps) policy candidate lock := by
  obtain ⟨lock_path, hlocated, hlock⟩ := h.lock_read
  obtain ⟨base, committed, cached, unstaged, hbase, hcommitted, hcached, hunstaged, himmutable⟩ :=
    h.immutable
  exact {
    clean := h.clean.append_left opening
    policy_read := h.policy_read.append_left opening
    plan_read := h.plan_read.append_left opening
    resolved := h.resolved.append_left opening
    lock_read := ⟨lock_path, hlocated.append_left opening, hlock.append_left opening⟩
    lock_agrees := h.lock_agrees
    changed := h.changed.append_left opening
    hashed := h.hashed.append_left opening
    immutable := ⟨base, committed, cached, unstaged, hbase.append_left opening,
      hcommitted.append_left opening, hcached.append_left opening, hunstaged.append_left opening,
      himmutable⟩
    allowed := h.allowed }

/-- A refused declaration does not claim to pass. -/
theorem validateRiskDeclarations_rejects (plan : Plan) (classification : RiskClassification) :
    ErrorsIn Failure.Rejects (validateRiskDeclarations plan classification) :=
  (ErrorsIn.raiseIf Failure.rejects_of_ne).bind fun _ _ => ErrorsIn.raiseIf Failure.rejects_of_ne

/-- A refused contract change does not claim to pass. -/
theorem validateContractChanges_rejects (changed_paths : List Str) (plan : Plan)
    (policy : RiskPolicy) :
    ErrorsIn Failure.Rejects (validateContractChanges changed_paths plan policy) :=
  (ErrorsIn.mapM (contractChangePath_raises refused_rejects)).bind fun _ _ =>
    ErrorsIn.raiseIf Failure.rejects_of_ne

/-- A failure to find the required checks does not claim to pass. -/
theorem requiredCheckIds_rejects (plan : Plan) (classification : RiskClassification)
    (policy : RiskPolicy) :
    ErrorsIn Failure.Rejects (requiredCheckIds plan classification policy) := by
  refine (ErrorsIn.mapM fun risk => ?_).bind fun _ _ => .pure
  unfold riskChecks
  cases policy.risk_checks.lookup risk with
  | some checks => exact .ok
  | none => exact ErrorsIn.error.mpr trivial

/-- What the validation of the results raises is what collecting them has raised. -/
theorem validateCheckRunnerResults_rejects {raw_checks : RawChecks}
    (h : ErrorsIn Failure.Rejects raw_checks) (requested_ids : List Str) :
    ErrorsIn Failure.Rejects (validateCheckRunnerResults raw_checks requested_ids) := by
  cases raw_checks with
  | ok candidates =>
    rw [validateCheckRunnerResults_ok]
    exact .ok
  | error failure =>
    cases failure with
    | HarnessViolation state check_id reason => exact ErrorsIn.error.mpr (ErrorsIn.error.mp h)
    | raised error => exact .ite .ok (ErrorsIn.error.mpr trivial)

/-- The errors of the body of `try`: the failure, and the local variables that its handler sees. -/
def BodyRejects (error : Failure × Locals) : Prop := error.1.Rejects

variable {l : Locals} {α : Type}

omit [ByteRuntime] in
/-- A part of the body is handled with what is known before it. -/
theorem during_meets {Q : α → Prop} {p : HarnessM α}
    (hp : p.Meets RunnerRejects Failure.Rejects Q) :
    (l.during p).Meets RunnerRejects BodyRejects Q :=
  hp.mapError fun _ he => he

omit [ByteRuntime] in
/-- A sound part of the body. -/
theorem during_sound {p : HarnessM α} (hp : Sound p) :
    (l.during p).Meets RunnerRejects BodyRejects fun _ => True :=
  during_meets (.of_within hp)

omit [ByteRuntime] in
/-- A part of the body that asks nothing. -/
theorem during_lift {x : Except Failure α} (hx : ErrorsIn Failure.Rejects x) :
    (l.during (liftM x)).Meets RunnerRejects BodyRejects fun _ => True :=
  during_sound (sound_lift hx)

omit [ByteRuntime] in
/-- The check runner raises no violation that claims to pass. -/
theorem callRunner_meets (root : Path) (requested_ids : List Str) :
    (callRunner root requested_ids).Meets RunnerRejects Failure.Rejects
      (ErrorsIn Failure.Rejects) := by
  intro answer hanswer
  cases answer with
  | error failure => exact hanswer
  | ok raw_checks =>
    rintro failure rfl
    exact hanswer

/-- As long as the runner does not claim to pass, no failure of the body does. -/
theorem evaluateBody_meets (resolved_root plan_path : Path) :
    (evaluateBody resolved_root plan_path).Meets RunnerRejects BodyRejects fun _ => True := by
  refine (during_sound (sound_validateEvaluateCleanState _ _)).bind fun _ _ => ?_
  refine (during_sound (sound_loadRiskPolicy _)).bind fun policy _ => ?_
  refine (during_sound (sound_loadPlan _ _ _)).bind fun plan _ => ?_
  refine (during_sound (sound_resolveLocalGitContext _ _)).bind fun context _ => ?_
  refine (during_sound (sound_safeEvidencePath _ _)).bind fun lock_path _ => ?_
  refine (during_sound (sound_loadPlanLock _)).bind fun lock _ => ?_
  refine (during_lift (validatePlanLock_rejects _ _ _)).bind fun _ _ => ?_
  refine (during_sound (sound_collectLocalChangedPaths _ _)).bind fun changed_paths _ => ?_
  refine (during_sound (sound_computeDiffHash _ _ _)).bind fun diff_hash _ => ?_
  refine (during_sound (sound_validateExistingMigrationsImmutable _ _ _)).bind fun _ _ => ?_
  refine (during_lift (ErrorsIn.raiseIf Failure.rejects_of_ne)).bind fun _ _ => ?_
  refine (during_lift (ErrorsIn.raiseIf Failure.rejects_of_ne)).bind fun _ _ => ?_
  refine (during_lift (validateRiskDeclarations_rejects _ _)).bind fun _ _ => ?_
  refine (during_lift (validateContractChanges_rejects _ _ _)).bind fun _ _ => ?_
  refine (during_lift (requiredCheckIds_rejects _ _ _)).bind fun requested_ids _ => ?_
  refine (during_meets (callRunner_meets _ _)).bind fun raw hraw => ?_
  exact (during_lift (validateCheckRunnerResults_rejects hraw _)).bind fun _ _ => trivial

end Refusals

section Body

variable [ByteRuntime] {resolved_root plan_path : Path} {steps : Trace} {l : Locals}

omit [ByteRuntime] in
/-- The body goes on from what a step returns. -/
theorem during_bind_replay_ok {α β : Type} {p : HarnessM α}
    {f : α → Script (Failure × Locals) Op.Answer β} {b : β} :
    (l.during p >>= f).replay steps = some (.ok b) ↔
      ∃ a first second, steps = first ++ second ∧ p.replay first = some (.ok a) ∧
        (f a).replay second = some (.ok b) := by
  simp only [Script.replay_bind_ok, Locals.during, Script.replay_mapError_ok]

omit [ByteRuntime] in
/-- A check takes no step. -/
theorem during_lift_replay_ok {α β : Type} {x : Except Failure α}
    {f : α → Script (Failure × Locals) Op.Answer β} {b : β} :
    (l.during (liftM x) >>= f).replay steps = some (.ok b) ↔
      ∃ a, x = .ok a ∧ (f a).replay steps = some (.ok b) := by
  rw [during_bind_replay_ok]
  constructor
  · rintro ⟨a, first, second, rfl, hfirst, hsecond⟩
    obtain ⟨rfl, ha⟩ := Script.replay_ofExcept.mp hfirst
    exact ⟨a, ha.symm, hsecond⟩
  · rintro ⟨a, ha, hrest⟩
    exact ⟨a, [], steps, rfl, Script.replay_ofExcept.mpr ⟨rfl, ha.symm⟩, hrest⟩

/-- A clean state is one without any worktree path. -/
theorem validateEvaluateCleanState_ranIn {phase : Str}
    (h : (validateEvaluateCleanState resolved_root phase).RanIn steps ()) :
    (collectWorktreePaths resolved_root).RanIn steps [] := by
  obtain ⟨dirty_paths, hdirty, hclean⟩ := h.bind
  obtain rfl := not_not.mp hclean.of_ite_throw.1
  exact hdirty

/-- No migration of the merge base is mutated if the check passes. -/
theorem validateExistingMigrationsImmutable_ranIn {context : GitContext} {changed_paths : List Str}
    (h : (validateExistingMigrationsImmutable resolved_root context changed_paths).RanIn steps ()) :
    ∃ base committed cached unstaged,
      (nulPaths resolved_root (baseMigrationArgs context.merge_base_sha)).RanIn steps base ∧
      (nameStatus resolved_root
        (committedMutationArgs context.merge_base_sha)).RanIn steps committed ∧
      (nameStatus resolved_root cachedMutationArgs).RanIn steps cached ∧
      (nameStatus resolved_root unstagedMutationArgs).RanIn steps unstaged ∧
      ∀ path ∈ base, path ∉ committed ++ cached ++ unstaged := by
  obtain ⟨base, hbase, h⟩ := h.bind
  obtain ⟨committed, hcommitted, h⟩ := h.bind
  obtain ⟨cached, hcached, h⟩ := h.bind
  obtain ⟨unstaged, hunstaged, h⟩ := h.bind
  exact ⟨base, committed, cached, unstaged, hbase, hcommitted, hcached, hunstaged,
    checkMutations_eq_ok h.of_ofExcept⟩

/-- A policy that was read is well formed. -/
theorem loadRiskPolicy_wellFormed {path : Path} {policy : RiskPolicy}
    (h : (loadRiskPolicy path).RanIn steps policy) : policy.WellFormed := by
  obtain ⟨before_, during, after_, -, hreplay⟩ := h
  obtain ⟨answer, rest, -, hrest⟩ := Script.replay_ask.mp hreplay
  cases answer with
  | ok raw => exact parseRiskPolicy_wellFormed (Script.replay_ofExcept.mp hrest).2.symm
  | error error =>
    have hnever : (if error.isOSError then
          throw (policyError ("risk policy를 읽을 수 없습니다: " ++ error.text))
        else throw (.raised error) : HarnessM RiskPolicy).Meets (fun _ _ => True) (fun _ => True)
          fun _ => False := .ite trivial trivial
    exact absurd hrest (hnever.never rest policy)

/-- A plan that was read is the accepted content of some file. -/
theorem loadPlan_parsed {policy : RiskPolicy} {plan : Plan}
    (h : (loadPlan resolved_root plan_path policy).RanIn steps plan) :
    ∃ raw relative_path, parsePlan raw relative_path policy.known_risks = .ok plan := by
  obtain ⟨root, -, h⟩ := h.bind
  obtain ⟨⟨relative_path, raw⟩, -, h⟩ := h.bind
  exact ⟨raw, relative_path, h.of_ofExcept⟩

/-- What has been seen when the runner has answered. -/
structure Judged (resolved_root plan_path : Path) (steps : Trace) (l : Locals) where
  policy : RiskPolicy
  candidate : Identity
  lock : PlanLock
  requested_ids : List Str
  raw_checks : RawChecks
  results : List CheckResult
  runner_error : Option CheckResult
  before_runner : Trace
  steps_eq : steps = before_runner ++ [⟨.checkRunner resolved_root requested_ids, .ok raw_checks⟩]
  accepted : Accepted resolved_root plan_path before_runner policy candidate lock
  requested : requiredCheckIds candidate.plan
    (classifyRisks candidate.changed_paths policy candidate.plan.relative_path) policy =
      .ok requested_ids
  judged : validateCheckRunnerResults raw_checks requested_ids = .ok (results, runner_error)
  plan_eq : l.plan = some candidate.plan
  context_eq : l.context = some candidate.context
  lock_eq : l.lock = some lock
  changed_paths_eq : l.changed_paths = candidate.changed_paths
  diff_hash_eq : l.diff_hash = some candidate.diff_hash
  reported : results ++ runner_error.toList ⊆ l.checks

/-- The body returns after it has seen all that it asks for. -/
theorem evaluateBody_replay_ok
    (h : (evaluateBody resolved_root plan_path).replay steps = some (.ok l)) :
    Nonempty (Judged resolved_root plan_path steps l) := by
  obtain ⟨⟨⟩, s1, _, rfl, hclean, h⟩ := during_bind_replay_ok.1 h
  obtain ⟨policy, s2, _, rfl, hpolicy, h⟩ := during_bind_replay_ok.1 h
  obtain ⟨plan, s3, _, rfl, hplan, h⟩ := during_bind_replay_ok.1 h
  obtain ⟨context, s4, _, rfl, hcontext, h⟩ := during_bind_replay_ok.1 h
  obtain ⟨lock_path, s5, _, rfl, hpath, h⟩ := during_bind_replay_ok.1 h
  obtain ⟨lock, s6, _, rfl, hlock, h⟩ := during_bind_replay_ok.1 h
  obtain ⟨⟨⟩, hagrees, h⟩ := during_lift_replay_ok.1 h
  obtain ⟨changed_paths, s7, _, rfl, hchanged, h⟩ := during_bind_replay_ok.1 h
  obtain ⟨diff_hash, s8, _, rfl, hhash, h⟩ := during_bind_replay_ok.1 h
  obtain ⟨⟨⟩, s9, _, rfl, himmutable, h⟩ := during_bind_replay_ok.1 h
  obtain ⟨⟨⟩, hscope, h⟩ := during_lift_replay_ok.1 h
  obtain ⟨⟨⟩, -, h⟩ := during_lift_replay_ok.1 h
  obtain ⟨⟨⟩, hdeclared, h⟩ := during_lift_replay_ok.1 h
  obtain ⟨⟨⟩, hcontracts, h⟩ := during_lift_replay_ok.1 h
  obtain ⟨requested_ids, hrequested, h⟩ := during_lift_replay_ok.1 h
  obtain ⟨raw_checks, s10, rest, rfl, hraw, h⟩ := during_bind_replay_ok.1 h
  obtain ⟨⟨results, runner_error⟩, hjudged, h⟩ := during_lift_replay_ok.1 h
  obtain ⟨rfl, hl⟩ := Script.replay_done.mp h
  obtain rfl := Except.ok.inj hl
  obtain ⟨answer, rest, rfl, hcollect⟩ := Script.replay_ask.mp hraw
  obtain ⟨rfl, hanswer⟩ := Script.replay_ofExcept.mp hcollect
  obtain rfl : answer = .ok raw_checks := hanswer.symm
  have hpolicy' := (Script.ranIn_of_replay hpolicy)
  obtain ⟨raw, relative_path, hparsed⟩ := loadPlan_parsed (Script.ranIn_of_replay hplan)
  have hgate : GateAccepts policy plan changed_paths :=
    ⟨not_not.mp (Checked.raiseIf_eq_ok.mp hscope), hdeclared, hcontracts⟩
  refine ⟨{
    policy, lock, requested_ids, raw_checks, results, runner_error
    candidate := ⟨plan, context, changed_paths, diff_hash⟩
    before_runner := s1 ++ s2 ++ s3 ++ s4 ++ s5 ++ s6 ++ s7 ++ s8 ++ s9
    steps_eq := by simp only [List.append_assoc, List.append_nil]
    accepted := {
      clean := validateEvaluateCleanState_ranIn
        ⟨[], s1, s2 ++ s3 ++ s4 ++ s5 ++ s6 ++ s7 ++ s8 ++ s9, by simp, hclean⟩
      policy_read := ⟨s1, s2, s3 ++ s4 ++ s5 ++ s6 ++ s7 ++ s8 ++ s9, by simp, hpolicy⟩
      plan_read := ⟨s1 ++ s2, s3, s4 ++ s5 ++ s6 ++ s7 ++ s8 ++ s9, by simp, hplan⟩
      resolved := ⟨s1 ++ s2 ++ s3, s4, s5 ++ s6 ++ s7 ++ s8 ++ s9, by simp, hcontext⟩
      lock_read := ⟨lock_path, ⟨s1 ++ s2 ++ s3 ++ s4, s5, s6 ++ s7 ++ s8 ++ s9, by simp, hpath⟩,
        s1 ++ s2 ++ s3 ++ s4 ++ s5, s6, s7 ++ s8 ++ s9, by simp, hlock⟩
      lock_agrees := validatePlanLock_eq_ok.mp hagrees
      changed := ⟨s1 ++ s2 ++ s3 ++ s4 ++ s5 ++ s6, s7, s8 ++ s9, by simp, hchanged⟩
      hashed := ⟨s1 ++ s2 ++ s3 ++ s4 ++ s5 ++ s6 ++ s7, s8, s9, by simp, hhash⟩
      immutable := validateExistingMigrationsImmutable_ranIn
        ⟨s1 ++ s2 ++ s3 ++ s4 ++ s5 ++ s6 ++ s7 ++ s8, s9, [], by simp, himmutable⟩
      allowed := (gateAccepts_iff (loadRiskPolicy_wellFormed hpolicy')
        (parsePlan_wellFormed hparsed).1).mp hgate }
    requested := hrequested
    judged := hjudged
    plan_eq := rfl
    context_eq := rfl
    lock_eq := rfl
    changed_paths_eq := rfl
    diff_hash_eq := rfl
    reported := ?_ }⟩
  intro check hcheck
  rw [List.append_assoc]
  exact List.mem_append_right _ hcheck

end Body

section Stages

variable [ByteRuntime] {resolved_root plan_path : Path} {steps : Trace} {l l' : Locals}

/-- All checks so far have passed. -/
def Locals.Passes (l : Locals) : Prop := ∀ check ∈ l.checks, check.state = .PASS

omit [ByteRuntime] in
/-- One more check has to pass as well. -/
theorem passes_append {check : CheckResult} :
    (l.append check).Passes ↔ l.Passes ∧ check.state = .PASS :=
  List.forall_mem_append.trans (and_congr_right fun _ => List.forall_mem_singleton)

omit [ByteRuntime] in
/-- The state of an evaluation adds up its checks. -/
theorem evaluationFromValues_state {path : Str} :
    (evaluationFromValues path l).state = .PASS ↔ l.Passes := aggregateState_eq_pass

/-- A failure of the body would have been appended. -/
theorem runChecks_passed (h : (runChecks resolved_root plan_path).replay steps = some (.ok l))
    (hpasses : l.Passes) (hrejects : ∀ step ∈ steps, RunnerRejects step.op step.answer) :
    Nonempty (Judged resolved_root plan_path steps l) := by
  obtain ⟨outcome, first, last, rfl, hattempt, hlast⟩ := Script.replay_bind_ok.mp h
  obtain ⟨r, hr, hbody⟩ := Script.replay_attempt.mp hattempt
  obtain rfl := Except.ok.inj hr
  cases outcome with
  | ok found =>
    obtain ⟨rfl, hfound⟩ := Script.replay_done.mp hlast
    obtain rfl := Except.ok.inj hfound
    rw [List.append_nil]
    exact evaluateBody_replay_ok hbody
  | error error =>
    obtain ⟨failure, found⟩ := error
    obtain ⟨rfl, hfound⟩ := Script.replay_done.mp hlast
    obtain rfl := Except.ok.inj hfound
    rw [List.append_nil] at hrejects
    have hfailure := ((evaluateBody_meets resolved_root plan_path).replay hrejects hbody).1 _ rfl
    exact absurd (passes_append.1 hpasses).2 (failureCheck_state_ne hfailure)

/-- A stage has appended one check, or none. -/
def Locals.Grows (l l' : Locals) : Prop := l' = l ∨ ∃ check, l' = l.append check

omit [ByteRuntime] in
/-- If all checks pass, then all earlier ones do. -/
theorem Locals.Grows.passes (h : l.Grows l') (hpasses : l'.Passes) : l.Passes := by
  obtain rfl | ⟨check, rfl⟩ := h
  · exact hpasses
  · exact (passes_append.1 hpasses).1

/-- The check of freshness only adds checks. -/
theorem recheck_grows {ending : Option Identity}
    (h : (recheck resolved_root plan_path l).replay steps = some (.ok (l', ending))) :
    l.Grows l' := by
  unfold recheck at h
  split at h
  · obtain ⟨⟨freshness, found⟩, first, last, -, -, hlast⟩ := Script.replay_bind_ok.mp h
    obtain ⟨-, hfound⟩ := Script.replay_done.mp hlast
    exact .inr ⟨freshness, (Prod.mk.inj (Except.ok.inj hfound)).1⟩
  · obtain ⟨-, hfound⟩ := Script.replay_done.mp h
    exact .inl (Prod.mk.inj (Except.ok.inj hfound)).1

omit [ByteRuntime] in
/-- The decision about the lock only adds checks. -/
theorem decideRestore_grows {ending : Option Identity} {restore : Bool}
    (h : (decideRestore l ending).replay steps = some (.ok (l', restore))) : l.Grows l' := by
  have happended {found : Locals} {b : Bool} (hgrows : l.Grows found)
      (hdone : (Script.done (found, b) : HarnessM (Locals × Bool)).replay steps =
        some (.ok (l', restore))) : l.Grows l' :=
    (Prod.mk.inj (Except.ok.inj (Script.replay_done.mp hdone).2)).1 ▸ hgrows
  unfold decideRestore at h
  split at h
  · exact happended (.inl rfl) h
  · split at h
    · exact happended (.inr ⟨_, rfl⟩) h
    · split at h
      · exact happended (.inl rfl) h
      · exact happended (.inr ⟨_, rfl⟩) h
      · cases (Script.replay_throw.mp h).2

/-- If all checks have passed, the runner has answered with exactly the results: an error of it
would have been a failed check. -/
theorem Judged.complete (judged : Judged resolved_root plan_path steps l) (hpasses : l.Passes) :
    judged.raw_checks = .ok (judged.results.map (·.toCandidate)) ∧
      CompleteResults judged.results judged.requested_ids := by
  have hjudged := judged.judged
  cases herror : judged.runner_error with
  | none =>
    rw [herror] at hjudged
    exact validateCheckRunnerResults_eq_none.mp hjudged
  | some error =>
    rw [herror] at hjudged
    have hfailed := (validateCheckRunnerResults_eq_some hjudged).1
    have hreported : error ∈ l.checks := judged.reported (by simp [herror])
    cases hfailed.symm.trans (hpasses error hreported)

omit [ByteRuntime] in
/-- What keeps the identity from being read again does not pass. -/
theorem freshnessFailure_state_ne {failure : Failure} (h : failure.Rejects) :
    (freshnessFailure failure).state ≠ .PASS := by
  cases failure with
  | HarnessViolation state check_id reason =>
    rw [freshnessFailure]
    split
    · exact h
    · show ite _ _ _ ≠ State.PASS
      split
      · exact nofun
      · exact h
  | raised error => exact nofun

omit [ByteRuntime] in
/-- The check of freshness passes if nothing that it compares has changed. -/
theorem freshnessResult_state {initial current : Identity} :
    (freshnessResult initial current).state = .PASS ↔ SameIdentity initial current := by
  rw [← changedLabels_eq_nil, freshnessResult]
  split
  · exact iff_of_false nofun ‹_›
  · exact iff_of_true rfl (not_not.mp ‹_›)

/-- The check of freshness passes only for the identity that was read first. -/
theorem recheck_passed {initial : Identity} {ending : Option Identity}
    (h : (recheck resolved_root plan_path l).replay steps = some (.ok (l', ending)))
    (hpasses : l'.Passes) (hplan : l.plan = some initial.plan)
    (hcontext : l.context = some initial.context) (hhash : l.diff_hash = some initial.diff_hash)
    (hpaths : l.changed_paths = initial.changed_paths) :
    ∃ current check, ending = some current ∧ l' = l.append check ∧
      SameIdentity initial current ∧
        (currentIdentity resolved_root plan_path).RanIn steps current := by
  unfold recheck at h
  rw [hplan, hcontext, hhash, hpaths] at h
  obtain ⟨⟨freshness, found⟩, first, last, rfl, hcheck, hlast⟩ := Script.replay_bind_ok.mp h
  obtain ⟨rfl, hfound⟩ := Script.replay_done.mp hlast
  obtain ⟨rfl, rfl⟩ := Prod.mk.inj (Except.ok.inj hfound)
  have hfresh := (passes_append.1 hpasses).2
  obtain ⟨outcome, reading, _, rfl, hattempt, hbehind⟩ := Script.replay_bind_ok.mp hcheck
  obtain ⟨r, hr, hread⟩ := Script.replay_attempt.mp hattempt
  obtain rfl := Except.ok.inj hr
  cases outcome with
  | ok current =>
    obtain ⟨rfl, hresult⟩ := Script.replay_done.mp hbehind
    obtain ⟨rfl, rfl⟩ := Prod.mk.inj (Except.ok.inj hresult)
    refine ⟨current, _, rfl, rfl, freshnessResult_state.1 hfresh, ?_⟩
    simpa using Script.ranIn_of_replay hread
  | error failure =>
    obtain ⟨rfl, hresult⟩ := Script.replay_done.mp hbehind
    obtain ⟨rfl, rfl⟩ := Prod.mk.inj (Except.ok.inj hresult)
    have hfailure := ((sound_currentIdentity resolved_root plan_path).replay hread).2 _ rfl
    exact absurd hfresh (freshnessFailure_state_ne hfailure)

omit [ByteRuntime] in
/-- A lock that was loaded is restored, or the reason is appended. -/
theorem decideRestore_passed {lock : PlanLock} {ending : Option Identity} {restore : Bool}
    (h : (decideRestore l ending).replay steps = some (.ok (l', restore))) (hpasses : l'.Passes)
    (hlock : l.lock = some lock) :
    steps = [] ∧ l' = l ∧ restore = true ∧
      ∃ current, ending = some current ∧ lock.Agrees current.plan current.context := by
  unfold decideRestore at h
  rw [hlock] at h
  cases ending with
  | none =>
    obtain ⟨-, hresult⟩ := Script.replay_done.mp h
    obtain ⟨rfl, -⟩ := Prod.mk.inj (Except.ok.inj hresult)
    cases (passes_append.1 hpasses).2
  | some current =>
    cases hvalid : validatePlanLock lock current.plan current.context with
    | ok u =>
      simp only [hvalid] at h
      obtain ⟨rfl, hresult⟩ := Script.replay_done.mp h
      obtain ⟨rfl, rfl⟩ := Prod.mk.inj (Except.ok.inj hresult)
      exact ⟨rfl, rfl, rfl, current, rfl, validatePlanLock_eq_ok.mp hvalid⟩
    | error failure =>
      have hrejects := validatePlanLock_rejects _ _ _ _ hvalid
      cases failure with
      | HarnessViolation state check_id reason =>
        simp only [hvalid] at h
        obtain ⟨-, hresult⟩ := Script.replay_done.mp h
        obtain ⟨rfl, -⟩ := Prod.mk.inj (Except.ok.inj hresult)
        exact absurd (passes_append.1 hpasses).2 hrejects
      | raised error =>
        simp only [hvalid] at h
        cases (Script.replay_throw.mp h).2

/-- Finding the evidence paths again is sound. -/
theorem sound_recheckPaths (resolved_root evaluation_path : Path) (restore : Bool) :
    Sound (recheckPaths resolved_root evaluation_path restore) := by
  refine (sound_safeEvidencePath _ _).bind fun final_evaluation_path => ?_
  refine .ite evidencePathError_rejects ?_
  refine .ite ((sound_safeEvidencePath _ _).bind fun final_lock_path => ?_) .pure
  exact .ite evidencePathError_rejects .pure

/-- What forbids the write is appended. -/
theorem decideWrite_passed {evaluation_path : Path} {restore can_write : Bool}
    (h : (decideWrite resolved_root evaluation_path l restore).replay steps =
      some (.ok (l', can_write))) (hpasses : l'.Passes) : l' = l ∧ can_write = true := by
  obtain ⟨outcome, first, last, rfl, hattempt, hlast⟩ := Script.replay_bind_ok.mp h
  obtain ⟨r, hr, hpaths⟩ := Script.replay_attempt.mp hattempt
  obtain rfl := Except.ok.inj hr
  cases outcome with
  | ok u =>
    obtain ⟨-, hresult⟩ := Script.replay_done.mp hlast
    obtain ⟨rfl, rfl⟩ := Prod.mk.inj (Except.ok.inj hresult)
    exact ⟨rfl, rfl⟩
  | error failure =>
    have hsound := sound_recheckPaths resolved_root evaluation_path restore
    have hrejects := (hsound.replay hpaths).2 _ rfl
    cases failure with
    | HarnessViolation state check_id reason =>
      obtain ⟨-, hresult⟩ := Script.replay_done.mp hlast
      obtain ⟨rfl, -⟩ := Prod.mk.inj (Except.ok.inj hresult)
      exact absurd (passes_append.1 hpasses).2 hrejects
    | raised error =>
      obtain ⟨-, hresult⟩ := Script.replay_done.mp hlast
      obtain ⟨rfl, -⟩ := Prod.mk.inj (Except.ok.inj hresult)
      cases (passes_append.1 hpasses).2

omit [ByteRuntime] in
/-- An evaluation that passes adds up the checks so far, and is written if it may be. -/
theorem record_passed {evaluation_path : Path} {path : Str} {restore can_write : Bool}
    {evaluation : Evaluation}
    (h : (record resolved_root evaluation_path path l restore can_write).replay steps =
      some (.ok evaluation)) (hpass : evaluation.state = .PASS) :
    evaluation = evaluationFromValues path l ∧ l.Passes ∧
      (can_write = true → (writeEvidence resolved_root evaluation_path
        (if restore then l.lock else none) evaluation).replay steps = some (.ok ())) := by
  unfold record at h
  cases can_write with
  | false =>
    obtain ⟨-, hresult⟩ := Script.replay_done.mp h
    obtain rfl := Except.ok.inj hresult
    exact ⟨rfl, evaluationFromValues_state.1 hpass, fun hwrite => absurd hwrite Bool.false_ne_true⟩
  | true =>
    obtain ⟨outcome, first, last, rfl, hattempt, hlast⟩ := Script.replay_bind_ok.mp h
    obtain ⟨r, hr, hwrite⟩ := Script.replay_attempt.mp hattempt
    obtain rfl := Except.ok.inj hr
    cases outcome with
    | ok u =>
      obtain ⟨rfl, hresult⟩ := Script.replay_done.mp hlast
      obtain rfl := Except.ok.inj hresult
      refine ⟨rfl, evaluationFromValues_state.1 hpass, fun _ => ?_⟩
      rwa [List.append_nil]
    | error error =>
      obtain ⟨-, hresult⟩ := Script.replay_done.mp hlast
      obtain rfl := Except.ok.inj hresult
      cases (passes_append.1 (evaluationFromValues_state.1 hpass)).2

end Stages

section Results

variable [ByteRuntime] {root plan_path : Path} {steps : Trace} {evaluation : Evaluation}

/-- A run of `evaluate` ends where the old evidence cannot be removed, or goes through all its
stages. -/
theorem evaluate_replay (h : (evaluate root plan_path).replay steps = some (.ok evaluation)) :
    (∃ failure, (openEvidence root).replay steps = some (.error failure) ∧
        evaluation = evaluationFromValues plan_path.asPosix
          (Locals.append {} (failureCheck failure))) ∨
      ∃ resolved_root evaluation_path l l₁ l₂ l₃ ending restore can_write,
        ∃ opening s₁ s₂ s₃ s₄ s₅ : Trace,
          steps = opening ++ (s₁ ++ (s₂ ++ (s₃ ++ (s₄ ++ s₅)))) ∧
          (openEvidence root).replay opening = some (.ok (resolved_root, evaluation_path)) ∧
          (runChecks resolved_root plan_path).replay s₁ = some (.ok l) ∧
          (recheck resolved_root plan_path l).replay s₂ = some (.ok (l₁, ending)) ∧
          (decideRestore l₁ ending).replay s₃ = some (.ok (l₂, restore)) ∧
          (decideWrite resolved_root evaluation_path l₂ restore).replay s₄ =
            some (.ok (l₃, can_write)) ∧
          (record resolved_root evaluation_path plan_path.asPosix l₃ restore can_write).replay s₅ =
            some (.ok evaluation) := by
  obtain ⟨outcome, opening, rest, rfl, hattempt, hrest⟩ := Script.replay_bind_ok.mp h
  obtain ⟨r, hr, hopen⟩ := Script.replay_attempt.mp hattempt
  obtain rfl := Except.ok.inj hr
  cases outcome with
  | error failure =>
    obtain ⟨rfl, hresult⟩ := Script.replay_done.mp hrest
    rw [List.append_nil]
    exact .inl ⟨failure, hopen, Except.ok.inj hresult⟩
  | ok opened =>
    obtain ⟨resolved_root, evaluation_path⟩ := opened
    obtain ⟨l, s₁, _, rfl, hchecks, h⟩ := Script.replay_bind_ok.mp hrest
    obtain ⟨⟨l₁, ending⟩, s₂, _, rfl, hrecheck, h⟩ := Script.replay_bind_ok.mp h
    obtain ⟨⟨l₂, restore⟩, s₃, _, rfl, hrestore, h⟩ := Script.replay_bind_ok.mp h
    obtain ⟨⟨l₃, can_write⟩, s₄, s₅, rfl, hwrite, hrecord⟩ := Script.replay_bind_ok.mp h
    exact .inr ⟨resolved_root, evaluation_path, l, l₁, l₂, l₃, ending, restore, can_write, opening,
      s₁, s₂, s₃, s₄, s₅, rfl, hopen, hchecks, hrecheck, hrestore, hwrite, hrecord⟩

/-- No violation of the removal claims to pass. -/
theorem openEvidence_within (root : Path) :
    (openEvidence root).Within Op.Removing Failure.Rejects := by
  refine ((sound_strictRepositoryRoot root).imp fun _ => .inl).bind fun resolved_root => ?_
  refine .bind (.bind ((sound_safeEvidencePath _ _).imp fun _ => .inl) fun evaluation_path => ?_)
    fun _ => .pure
  exact removeStaleEvidence_within _ _

/-- A run that passes has gone through all its stages, and none has appended a failed check. -/
theorem evaluate_passed (hreplay : (evaluate root plan_path).replay steps = some (.ok evaluation))
    (hpass : evaluation.state = .PASS)
    (hrejects : ∀ step ∈ steps, RunnerRejects step.op step.answer) :
    Nonempty (PassedParts root plan_path steps evaluation) := by
  obtain ⟨failure, hopen, rfl⟩ | ⟨resolved_root, evaluation_path, l, l₁, l₂, l₃, ending, restore,
    can_write, opening, s₁, s₂, s₃, s₄, s₅, rfl, hopen, hchecks, hrecheck, hrestore, hwrite,
    hrecord⟩ := evaluate_replay hreplay
  · have hfailure := ((openEvidence_within root).replay hopen).2 failure rfl
    exact absurd (passes_append.1 (evaluationFromValues_state.1 hpass)).2
      (failureCheck_state_ne hfailure)
  -- each stage has appended nothing but checks that passed
  obtain ⟨rfl, hpasses₃, hwritten⟩ := record_passed hrecord hpass
  obtain ⟨rfl, rfl⟩ := decideWrite_passed hwrite hpasses₃
  have hpasses₁ := (decideRestore_grows hrestore).passes hpasses₃
  have hpasses := (recheck_grows hrecheck).passes hpasses₁
  have hrejects₁ : ∀ step ∈ s₁, RunnerRejects step.op step.answer := fun step hstep =>
    hrejects step (List.mem_append_right _ (List.mem_append_left _ hstep))
  obtain ⟨judged⟩ := runChecks_passed hchecks hpasses hrejects₁
  obtain ⟨ending, check, rfl, rfl, hsame, hreread⟩ := recheck_passed hrecheck hpasses₁
    judged.plan_eq judged.context_eq judged.diff_hash_eq judged.changed_paths_eq
  obtain ⟨rfl, rfl, rfl, _, hending, hagrees⟩ :=
    decideRestore_passed hrestore hpasses₃ judged.lock_eq
  obtain rfl := Option.some.inj hending
  obtain ⟨hraw, hcomplete⟩ := judged.complete hpasses
  have hresults : judged.results ⊆ l.checks := fun _ hmem =>
    judged.reported (List.mem_append_left _ hmem)
  have hsteps : opening ++ (s₁ ++ (s₂ ++ ([] ++ (s₄ ++ s₅)))) = (opening ++ judged.before_runner) ++
      ⟨.checkRunner resolved_root judged.requested_ids,
        .ok (.ok (judged.results.map (·.toCandidate)))⟩ :: (s₂ ++ (s₄ ++ s₅)) := by
    conv_lhs => rw [judged.steps_eq, hraw]
    simp only [List.append_assoc, List.singleton_append, List.nil_append]
  obtain ⟨_, hclean, -⟩ := hreread.bind
  have hwritten := hwritten rfl
  rw [if_pos rfl, show (l.append check).lock = some judged.lock from judged.lock_eq] at hwritten
  have hrecorded := Script.ranIn_of_replay hwritten
  exact ⟨{
    run := {
      resolved_root
      policy := judged.policy
      candidate := judged.candidate
      lock := judged.lock
      requested_ids := judged.requested_ids
      results := judged.results
      ending
      before_runner := opening ++ judged.before_runner
      after_runner := s₂ ++ (s₄ ++ s₅)
      steps_eq := hsteps
      accepted := judged.accepted.append_left opening
      requested := judged.requested
      complete := hcomplete
      passed := fun check hmem => hpasses check (hresults hmem)
      clean_again := (validateEvaluateCleanState_ranIn hclean).append_right _
      reread := hreread.append_right _
      unchanged := hsame
      lock_agrees_again := hagrees
      recorded := ⟨evaluation_path, (hrecorded.append_left _).append_left _⟩
      base_tip_sha := congrArg (Option.map _) judged.context_eq
      merge_base_sha := congrArg (Option.map _) judged.context_eq
      candidate_head_sha := congrArg (Option.map _) judged.context_eq
      plan_path_eq := congrArg (fun plan => (Option.map _ plan).getD _) judged.plan_eq
      plan_hash := congrArg (Option.map _) judged.plan_eq
      changed_paths := judged.changed_paths_eq
      diff_hash := judged.diff_hash_eq
      reported := fun _ hmem => List.mem_append_left _ (hresults hmem) }
    evaluation_path, l, opening
    checking := s₁
    deciding := s₂ ++ s₄
    writing := s₅
    steps_eq := by simp only [List.append_assoc, List.nil_append]
    opened := hopen
    checked := hchecks
    lock_eq := judged.lock_eq
    written := hwritten }⟩

/-- **Fail-closed evaluation.** For every behaviour of Git, of the file system and of a check
runner that does not itself raise a violation with the state `PASS`, a run of `evaluate` that
returns `PASS` has seen everything that such a run stands for. -/
theorem evaluate_pass_sound
    (hreplay : (evaluate root plan_path).replay steps = some (.ok evaluation))
    (hpass : evaluation.state = .PASS)
    (hrejects : ∀ step ∈ steps, RunnerRejects step.op step.answer) :
    Nonempty (PassedRun plan_path steps evaluation) := by
  obtain ⟨parts⟩ := evaluate_passed hreplay hpass hrejects
  exact ⟨parts.run⟩

end Results

namespace Sample

/-- What Git says after a commit that has changed a guide. -/
def committedGit (args : List Str) : Bytes :=
  let outputs : List (List String × String) :=
    [(["rev-parse", "HEAD"], "3333333333333333333333333333333333333333\n"),
      (["diff", "--name-status", "-z", "--find-renames", "--find-copies-harder",
        "1111111111111111111111111111111111111111", "HEAD", "--"], "M\x00docs/guide/a.md\x00"),
      (["diff", "--binary", "--no-ext-diff", "--no-textconv",
        "1111111111111111111111111111111111111111", "--"], "-a\n+b\n")]
  ((outputs.find? fun entry => entry.1.map Str.ofString = args).map fun entry =>
    Bytes.ofString entry.2).getD (git args)

/-- A check runner that passes everything that it is asked for, and deletes the lock. -/
def cleaningRunner (disk : Disk) : Except Failure RawChecks × Disk :=
  let check_ids : List Str := ["harness.unit", "gradle.test", "docs.links"]
  (.ok (.ok ((requiredPreflightCheckIds ++ check_ids).map fun check_id =>
      CheckResult.toCandidate { check_id, state := .PASS, reason := "ok" })),
    disk.set ((evidenceDirectory root).child lockName) none)

/-- The guide that has been changed. -/
def changedGuide : List Str := ["docs/guide/a.md"]

/-- The run of `evaluate` on the repository in which the plan has been prepared. -/
def evaluation : Trace × Except Failure Evaluation × Disk :=
  (@evaluate textRuntime root planPath).exec
    (machine committedGit cleaningRunner (.ok passedPreflight))
    (preparation (.ok passedPreflight)).2.2

/-- The sample run passes, with the changed guide. -/
theorem evaluation_passes :
    (evaluation.2.1.map fun found => (found.state, found.changed_paths)).toOption =
      some (State.PASS, changedGuide) := by
  decide +kernel

/-- The sample run is one of `evaluate`. -/
theorem evaluation_replay :
    ∃ found, (@evaluate textRuntime root planPath).replay evaluation.1 = some (.ok found) ∧
      found.state = .PASS ∧ found.changed_paths = changedGuide := by
  have hreplay := Script.replay_exec (machine committedGit cleaningRunner (.ok passedPreflight))
    (@evaluate textRuntime root planPath) (preparation (.ok passedPreflight)).2.2
  change _ = some evaluation.2.1 at hreplay
  have hpasses := evaluation_passes
  cases hresult : evaluation.2.1 with
  | error failure =>
    rw [hresult] at hpasses
    cases hpasses
  | ok found =>
    rw [hresult] at hpasses hreplay
    obtain ⟨hstate, hpaths⟩ := Prod.mk.inj (Option.some.inj hpasses)
    exact ⟨found, hreplay, hstate, hpaths⟩

/-- The runner does not claim to pass by a violation. -/
theorem evaluation_rejects : ∀ step ∈ evaluation.1, RunnerRejects step.op step.answer := by
  refine Script.exec_answers (fun disk op => ?_) _ _
  cases op with
  | _ => trivial

end Sample

/-- After a commit that changes a guide, the evaluation passes. -/
theorem evaluate_pass_sound_guide :
    ∃ steps evaluation, evaluation.changed_paths = Sample.changedGuide ∧
      Nonempty (@PassedRun Sample.textRuntime Sample.planPath steps evaluation) := by
  obtain ⟨found, hreplay, hstate, hpaths⟩ := Sample.evaluation_replay
  exact ⟨_, found, hpaths,
    @evaluate_pass_sound Sample.textRuntime _ _ _ _ hreplay hstate Sample.evaluation_rejects⟩

end CoffeeOrder.Harness
