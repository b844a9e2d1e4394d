import CoffeeOrder.Harness.Disk
import CoffeeOrder.Harness.Evaluate

/-!
# The preparation of a plan

`prepare` with all its steps. A lock is written only for a plan that has been seen twice, before
and after a preflight that passed; whatever goes wrong leaves no lock behind.
-/

namespace CoffeeOrder.Harness

open Kit Python

section Scripts

variable [ByteRuntime]

/-- `remove_stale_plan_lock`. -/
def removeStalePlanLock (root : Path) : HarnessM Path := do
  removeStaleEvidence (← safeEvidenceLockPath root) "plan lock"

/-- `validate_prepare_clean_state`. -/
def validatePrepareCleanState (root : Path) (plan : Plan) : HarnessM Unit := do
  let dirty_paths ← collectWorktreePaths root
  let unexpected_paths := dirty_paths.filter (· ≠ plan.relative_path)
  if unexpected_paths ≠ [] then
    throw (.HarnessViolation .REPLAN_REQUIRED "git.clean"
      ("선택한 plan 외 변경이 있습니다: " ++ renderPaths unexpected_paths))

/-- What `prepare` reads and checks both before and after the preflight. -/
def observe (resolved_root plan_path : Path) : HarnessM (Plan × GitContext) := do
  let policy ← loadRiskPolicy (riskPolicyPath resolved_root)
  let plan ← loadPlan resolved_root plan_path policy
  let context ← resolveLocalGitContext resolved_root plan
  validatePrepareCleanState resolved_root plan
  return (plan, context)

/-- `preflight(resolved_root)`. -/
def callPreflight (root : Path) : HarnessM RawChecks := do
  liftM (← ask (.preflight root))

/-- The rest of `prepare` after a preflight that has passed. -/
def lockPlan (resolved_root plan_path : Path) (initial_snapshot : PlanLock)
    (environment_checks : List CheckResult) : HarnessM (State × List CheckResult) := do
  let (current_plan, current_context) ← observe resolved_root plan_path
  liftM (validatePlanLock initial_snapshot current_plan current_context)
  let lock_path ← safeEvidenceLockPath resolved_root
  let lock := makePlanLock current_plan current_context
  (writeJsonAtomic lock_path (planLockPayload lock)).mapError .raised
  return (.PASS, environment_checks ++ [{
    check_id := "prepare", state := .PASS
    reason := "plan, branch, base tip, merge-base를 잠갔습니다." }])

/-- `prepare` after the removal of the old lock. -/
def prepareResolved (resolved_root plan_path : Path) : HarnessM (State × List CheckResult) := do
  let (plan, context) ← observe resolved_root plan_path
  let raw_checks ← callPreflight resolved_root
  let environment_checks ← liftM (validatePreflightResults raw_checks)
  match environment_checks.find? (·.state ≠ .PASS) with
  | some check => return (check.state, environment_checks)
  | none => lockPlan resolved_root plan_path (makePlanLock plan context) environment_checks

/-- The start of `prepare`: the root, and the path that holds no lock any more. -/
def openPreparation (root : Path) : HarnessM (Path × Path) := do
  let resolved_root ← strictRepositoryRoot root
  let lock_path ← removeStalePlanLock resolved_root
  return (resolved_root, lock_path)

/-- The body of `try` in `prepare`. -/
def prepareBody (root plan_path : Path) : HarnessM (State × List CheckResult) := do
  let (resolved_root, _) ← openPreparation root
  prepareResolved resolved_root plan_path

/-- `prepare`. -/
def prepare (root plan_path : Path) : HarnessM (State × List CheckResult) := do
  match ← Script.attempt (prepareBody root plan_path) with
  | .ok result => return result
  | .error failure => return ((failureCheck failure).state, [failureCheck failure])

end Scripts

/-- A violation that the preflight raises, in the call or while its results are collected, does
not claim to pass. -/
def PreflightRejects : (op : Op) → op.Answer → Prop
  | .preflight _, .error failure | .preflight _, .ok (.error failure) => failure.Rejects
  | _, _ => True

section Observations

variable [ByteRuntime] {root resolved_root plan_path : Path} {steps : Trace}

/-- Among the steps the plan and its context were read, and no other path was dirty. -/
structure Observed (resolved_root plan_path : Path) (steps : Trace) (plan : Plan)
    (context : GitContext) : Prop where
  read : ∃ policy, (loadRiskPolicy (riskPolicyPath resolved_root)).RanIn steps policy ∧
    (loadPlan resolved_root plan_path policy).RanIn steps plan
  resolved : (resolveLocalGitContext resolved_root plan).RanIn steps context
  clean : ∃ dirty_paths, (collectWorktreePaths resolved_root).RanIn steps dirty_paths ∧
    ∀ path ∈ dirty_paths, path = plan.relative_path

/-- What has been seen in a run that has locked a plan. -/
structure LockedRun (plan_path : Path) (steps : Trace) where
  resolved_root : Path
  plan : Plan
  context : GitContext
  environment_checks : List CheckResult
  current_plan : Plan
  current_context : GitContext
  lock_path : Path
  before_preflight : Trace
  after_preflight : Trace
  steps_eq : steps = before_preflight ++
    ⟨.preflight resolved_root, .ok (.ok (environment_checks.map (·.toCandidate)))⟩ ::
      after_preflight
  observed : Observed resolved_root plan_path before_preflight plan context
  /-- Each of the four required results is there once. -/
  complete : (environment_checks.map (·.check_id)).Perm requiredPreflightCheckIds
  passed : ∀ check ∈ environment_checks, check.state = .PASS
  observed_again : Observed resolved_root plan_path after_preflight current_plan current_context
  unchanged : Unchanged plan current_plan context current_context
  located : (safeEvidenceLockPath resolved_root).RanIn after_preflight lock_path

/-- The removal of the lock at a path was the start of the run. -/
def RemovesLock (root : Path) (steps : Trace) (lock_path : Path) : Prop :=
  ∃ opening rest resolved_root, steps = opening ++ rest ∧
    (openPreparation root).replay opening = some (.ok (resolved_root, lock_path))

/-- The file holds the payload of the lock. -/
def HoldsLock (disk : Disk) (lock_path : Path) (lock : PlanLock) : Prop :=
  ∃ content, jsonBytes (planLockPayload lock) = .ok content ∧ disk lock_path = some (.file content)

/-- A result of `prepare` that can be trusted: a lock is that of a plan that has passed, and
without one there is no file. -/
structure Trustworthy (root plan_path : Path) (steps : Trace) (state : State) (disk : Disk) :
    Prop where
  locked : state = .PASS → ∃ run : LockedRun plan_path steps,
    HoldsLock disk run.lock_path (makePlanLock run.plan run.context)
  absent : state ≠ .PASS → ∀ lock_path, RemovesLock root steps lock_path → disk lock_path = none

end Observations

section Absence

variable [ByteRuntime] {directory lock_path : Path} {foreign : Disk → Disk → Prop} {disk : Disk}

/-- `validate_prepare_clean_state` is sound. -/
theorem sound_validatePrepareCleanState (root : Path) (plan : Plan) :
    Sound (validatePrepareCleanState root plan) :=
  (sound_collectWorktreePaths root).bind fun _ => .ite Failure.rejects_of_ne .pure

/-- Reading the policy, the plan and its context is sound. -/
theorem sound_observe (resolved_root plan_path : Path) : Sound (observe resolved_root plan_path) :=
  (sound_loadRiskPolicy _).bind fun _ => (sound_loadPlan _ _ _).bind fun _ =>
    (sound_resolveLocalGitContext _ _).bind fun _ =>
      (sound_validatePrepareCleanState _ _).bind fun _ => .pure

omit [ByteRuntime] in
/-- The removal leaves no file. -/
theorem removeStaleEvidence_ensures (path : Path) (label : Str) :
    (removeStaleEvidence path label).Ensures (Effect foreign)
      (Script.returning fun disk found => found = path ∧ disk path = none) disk := by
  refine Script.ensures_ask fun answer disk' hE => ?_
  obtain ⟨rfl, hstatus⟩ := hE
  cases answer with
  | error error =>
    refine Script.keeps_ite (fun hmissing => ?_) fun _ => Script.returning_error
    exact Script.returning_ok.mpr ⟨rfl, hstatus hmissing⟩
  | ok path_status =>
    refine Script.keeps_ite (fun _ => Script.returning_error) fun _ => ?_
    refine Script.ensures_ask fun answer disk' hE => ?_
    cases answer with
    | error error => exact Script.returning_error
    | ok _ =>
      obtain rfl : disk' = _ := hE
      exact Script.returning_ok.mpr ⟨rfl, Disk.set_self ..⟩

/-- If the preflight does not claim to pass by a violation, nor does its validation. -/
theorem validatePreflightResults_rejects {raw_checks : RawChecks}
    (h : ErrorsIn Failure.Rejects raw_checks) :
    ErrorsIn Failure.Rejects (validatePreflightResults raw_checks) := by
  cases raw_checks with
  | ok candidates =>
    refine (ErrorsIn.mapM fun check => ?_).bind fun checks _ => ?_
    · exact ErrorsIn.mapError (P := fun _ => True) (fun _ _ => trivial) fun _ _ =>
        Failure.rejects_of_ne
    · exact (ErrorsIn.raiseIf Failure.rejects_of_ne).bind fun _ _ =>
        (ErrorsIn.raiseIf Failure.rejects_of_ne).bind fun _ _ => .pure
  | error failure =>
    cases failure with
    | HarnessViolation state check_id reason => exact ErrorsIn.error.mpr (ErrorsIn.error.mp h)
    | raised error =>
      rw [validatePreflightResults]
      split
      · exact ErrorsIn.error.mpr Failure.rejects_of_ne
      · exact ErrorsIn.error.mpr trivial

/-- The results that are accepted are all there are, one for each required id. -/
theorem validatePreflightResults_spec {raw_checks : RawChecks} {checks : List CheckResult}
    (h : validatePreflightResults raw_checks = .ok checks) :
    raw_checks = .ok (checks.map (·.toCandidate)) ∧
      (checks.map (·.check_id)).Perm requiredPreflightCheckIds := by
  cases raw_checks with
  | error failure =>
    cases failure with
    | HarnessViolation state check_id reason => cases h
    | raised error =>
      rw [validatePreflightResults] at h
      split at h <;> cases h
  | ok candidates =>
    obtain ⟨_, hcandidates, h⟩ := Checked.bind_eq_ok.mp h
    obtain rfl := Checked.pure_eq_ok.mp hcandidates
    obtain ⟨found, hfound, h⟩ := Checked.bind_eq_ok.mp h
    obtain ⟨hnodup, h⟩ := Checked.raiseIf_bind_eq_ok.mp h
    obtain ⟨hids, h⟩ := Checked.raiseIf_bind_eq_ok.mp h
    obtain rfl := Checked.pure_eq_ok.mp h
    have hall : List.Forall₂ (fun candidate check => candidate = check.toCandidate) candidates
        found := (Checked.mapM_eq_ok.mp hfound).imp fun _ _ hcheck =>
      (checkResultSchema_eq_ok.mp (Checked.mapError_eq_ok.mp hcheck)).1
    have hmap := List.forall₂_eq_eq_eq ▸ List.forall₂_map_right_iff.mpr hall
    refine ⟨congrArg _ hmap, ?_⟩
    refine (List.perm_ext_iff_of_nodup (not_not.mp hnodup) (by decide +kernel)).mpr fun id => ?_
    rw [← Str.mem_sortedSet, not_not.mp hids, Str.mem_sortedSet]

/-- A stale file that is located and removed is gone. -/
theorem removeLocated_ensures (resolved_root : Path) (filename label : Str) :
    (do removeStaleEvidence (← safeEvidencePath resolved_root filename) label :
      HarnessM Path).Ensures (Effect foreign) (Script.returning fun disk found =>
        (∃ directory : Path, found = directory.child filename) ∧ disk found = none) disk := by
  have hlocated := (safeEvidencePath_meets resolved_root filename).ensures (E := Effect foreign)
    (s := disk) fun _ _ _ _ _ => trivial
  refine hlocated.bind_returning ?_
  rintro disk path ⟨resolved_root', rfl⟩
  refine (removeStaleEvidence_ensures _ _).mono fun disk r hr found hfound => ?_
  obtain ⟨rfl, hnone⟩ := hr found hfound
  exact ⟨⟨_, rfl⟩, hnone⟩

/-- The old lock is gone. -/
theorem openPreparation_ensures (root : Path) :
    (openPreparation root).Ensures (Effect foreign) (Script.returning fun disk opened =>
      (∃ directory : Path, opened.2 = directory.child lockName) ∧ disk opened.2 = none) disk := by
  refine Script.ensures_anything.bind_returning fun disk resolved_root _ => ?_
  refine (removeLocated_ensures resolved_root lockName "plan lock").bind_returning ?_
  exact fun disk lock_path h => Script.returning_ok.mpr h

/-- No violation of the removal claims to pass. -/
theorem openPreparation_within (root : Path) :
    (openPreparation root).Within Op.Removing Failure.Rejects := by
  refine ((sound_strictRepositoryRoot root).imp fun _ => .inl).bind fun resolved_root => ?_
  refine .bind (.bind ((sound_safeEvidencePath _ _).imp fun _ => .inl) fun lock_path => ?_) fun _ =>
    .pure
  exact removeStaleEvidence_within _ _

/-- What a step of `prepare` does to the disk, if the preflight does not claim to pass. -/
abbrev PrepareEffect (foreign : Disk → Disk → Prop) (op : Op) (answer : op.Answer)
    (disk disk' : Disk) : Prop := PreflightRejects op answer ∧ Effect foreign op answer disk disk'

/-- There is no lock unless the result is `PASS`, and no failure claims to pass. -/
def LeavesNone (lock_path : Path) (disk : Disk) : Except Failure (State × List CheckResult) → Prop
  | .ok (state, _) => state ≠ .PASS → disk lock_path = none
  | .error failure => failure.Rejects ∧ disk lock_path = none

variable {directory : Path} (hforeign : Untouched foreign (directory.child lockName))

include hforeign

omit [ByteRuntime] in
/-- A sound part leaves no lock behind if the rest does not. -/
theorem Sound.bind_leavesNone {α : Type} {p : HarnessM α}
    {f : α → HarnessM (State × List CheckResult)} (hp : Sound p)
    (hnone : disk (directory.child lockName) = none)
    (hf : ∀ a disk, disk (directory.child lockName) = none →
      (f a).Ensures (PrepareEffect foreign) (LeavesNone (directory.child lockName)) disk) :
    (p >>= f).Ensures (PrepareEffect foreign) (LeavesNone (directory.child lockName)) disk := by
  refine Script.Within.bind_ensures (I := fun disk => disk (directory.child lockName) = none) hp ?_
    hnone (fun _ _ hdisk he => ⟨he, hdisk⟩) hf
  exact fun op answer disk disk' hop hE hdisk =>
    (quiet_keeps (by decide) hforeign hop hE.2).trans hdisk

/-- Locking the plan leaves a lock only if it returns `PASS`. -/
theorem lockPlan_leavesNone (resolved_root plan_path : Path) (initial_snapshot : PlanLock)
    (environment_checks : List CheckResult) (hnone : disk (directory.child lockName) = none) :
    (lockPlan resolved_root plan_path initial_snapshot environment_checks).Ensures
      (PrepareEffect foreign) (LeavesNone (directory.child lockName)) disk := by
  refine Sound.bind_leavesNone hforeign (sound_observe _ _) hnone ?_
  rintro ⟨current_plan, current_context⟩ disk hdisk
  have hvalid := sound_lift (validatePlanLock_rejects initial_snapshot current_plan current_context)
  refine Sound.bind_leavesNone hforeign hvalid hdisk fun _ disk hdisk => ?_
  refine Sound.bind_leavesNone hforeign (sound_safeEvidencePath _ _) hdisk ?_
  intro lock_path disk hdisk
  -- only the payload as such matters from here on
  dsimp only
  generalize planLockPayload (makePlanLock current_plan current_context) = payload
  refine Script.keeps_bind.mpr (Script.keeps_tryCatch.mpr ?_)
  refine (writeJsonAtomic_ensures (fun _ _ _ _ hE => hE.2) _ _ _).mono fun disk' r hr => ?_
  cases r with
  | ok _ => exact fun hstate => absurd rfl hstate
  | error error => exact ⟨trivial, (hr.keeps (by decide)).trans hdisk⟩

/-- From a disk without a lock, `prepare` leaves one only if it passes. -/
theorem prepareResolved_leavesNone (resolved_root plan_path : Path)
    (hnone : disk (directory.child lockName) = none) :
    (prepareResolved resolved_root plan_path).Ensures (PrepareEffect foreign)
      (LeavesNone (directory.child lockName)) disk := by
  refine Sound.bind_leavesNone hforeign (sound_observe _ _) hnone ?_
  rintro ⟨plan, context⟩ disk hdisk
  refine Script.ensures_ask fun answer disk' hE => ?_
  replace hdisk : disk' (directory.child lockName) = none := (hforeign _ _ hE.2).trans hdisk
  cases answer with
  | error failure => exact ⟨hE.1, hdisk⟩
  | ok raw_checks =>
    have hraw : ErrorsIn Failure.Rejects raw_checks := by
      rintro failure rfl
      exact hE.1
    have hchecks := sound_lift (validatePreflightResults_rejects hraw)
    change ((liftM (validatePreflightResults raw_checks) : HarnessM _) >>= _).Ensures _ _ disk'
    refine Sound.bind_leavesNone hforeign hchecks hdisk fun environment_checks disk hdisk => ?_
    cases hfound : environment_checks.find? (·.state ≠ .PASS) with
    | some check => exact fun _ => hdisk
    | none => exact lockPlan_leavesNone hforeign _ _ _ _ hdisk

end Absence

section Locked

variable [ByteRuntime] {resolved_root plan_path : Path} {steps : Trace}

/-- What was observed in a trace was observed in it after more steps. -/
theorem Observed.append_left {plan : Plan} {context : GitContext}
    (h : Observed resolved_root plan_path steps plan context) (before_ : Trace) :
    Observed resolved_root plan_path (before_ ++ steps) plan context := by
  obtain ⟨policy, hpolicy, hplan⟩ := h.read
  obtain ⟨dirty_paths, hdirty, hclean⟩ := h.clean
  exact ⟨⟨policy, hpolicy.append_left before_, hplan.append_left before_⟩,
    h.resolved.append_left before_, dirty_paths, hdirty.append_left before_, hclean⟩

/-- What was observed in a trace was observed in it before more steps. -/
theorem Observed.append_right {plan : Plan} {context : GitContext}
    (h : Observed resolved_root plan_path steps plan context) (after_ : Trace) :
    Observed resolved_root plan_path (steps ++ after_) plan context := by
  obtain ⟨policy, hpolicy, hplan⟩ := h.read
  obtain ⟨dirty_paths, hdirty, hclean⟩ := h.clean
  exact ⟨⟨policy, hpolicy.append_right after_, hplan.append_right after_⟩,
    h.resolved.append_right after_, dirty_paths, hdirty.append_right after_, hclean⟩

/-- What was read was observed. -/
theorem observe_observed {plan : Plan} {context : GitContext}
    (h : (observe resolved_root plan_path).replay steps = some (.ok (plan, context))) :
    Observed resolved_root plan_path steps plan context := by
  obtain ⟨policy, hpolicy, h⟩ := (Script.ranIn_of_replay h).bind
  obtain ⟨plan', hplan, h⟩ := h.bind
  obtain ⟨context', hcontext, h⟩ := h.bind
  obtain ⟨_, hclean, h⟩ := h.bind
  obtain ⟨rfl, rfl⟩ := Prod.mk.inj h.of_pure
  obtain ⟨dirty_paths, hdirty, hclean⟩ := hclean.bind
  refine ⟨⟨policy, hpolicy, hplan⟩, hcontext, dirty_paths, hdirty, ?_⟩
  have hunexpected := not_not.mp hclean.of_ite_throw.1
  simpa using List.filter_eq_nil_iff.mp hunexpected

/-- Whoever observes twice and passes in between has seen the same. -/
theorem lockPlan_replay_ok {initial_snapshot : PlanLock} {environment_checks : List CheckResult}
    {result : State × List CheckResult}
    (h : (lockPlan resolved_root plan_path initial_snapshot environment_checks).replay steps =
      some (.ok result)) :
    ∃ current_plan current_context lock_path looking writing, steps = looking ++ writing ∧
      Observed resolved_root plan_path looking current_plan current_context ∧
      initial_snapshot.Agrees current_plan current_context ∧
      (safeEvidenceLockPath resolved_root).RanIn looking lock_path ∧
      (writeJsonAtomic lock_path
        (planLockPayload (makePlanLock current_plan current_context))).replay
        writing = some (.ok ()) := by
  obtain ⟨⟨plan, context⟩, observing, _, rfl, hobserved, hvalidate⟩ := Script.replay_bind_ok.mp h
  obtain ⟨⟨⟩, _, _, rfl, hvalid, hlocate⟩ := Script.replay_bind_ok.mp hvalidate
  obtain ⟨rfl, hagrees⟩ := Script.replay_ofExcept.mp hvalid
  obtain ⟨lock_path, locating, _, rfl, hlocated, hwrite⟩ := Script.replay_bind_ok.mp hlocate
  obtain ⟨⟨⟩, writing, last, rfl, hwritten, hlast⟩ := Script.replay_bind_ok.mp hwrite
  obtain ⟨rfl, -⟩ := Script.replay_done.mp hlast
  refine ⟨plan, context, lock_path, observing ++ locating, writing, by simp, ?_,
    validatePlanLock_eq_ok.mp hagrees.symm, ?_, Script.replay_mapError_ok.mp hwritten⟩
  · exact (observe_observed hobserved).append_right locating
  · exact (Script.ranIn_of_replay hlocated).append_left observing

omit [ByteRuntime] in
/-- The lock fixes nothing but the seven fields. -/
theorem makePlanLock_congr {plan plan' : Plan} {context context' : GitContext}
    (h : Unchanged plan plan' context context') :
    makePlanLock plan' context' = makePlanLock plan context := by
  rw [makePlanLock, makePlanLock, h.issue, h.plan_path, h.plan_hash, h.target_branch, h.branch,
    h.base_tip_sha, h.merge_base_sha]

/-- The write that ends a run locks what the run has seen. -/
def LockedRun.EndsWith (run : LockedRun plan_path steps) (writing : Trace) : Prop :=
  (∃ before_, steps = before_ ++ writing) ∧
    (writeJsonAtomic run.lock_path (planLockPayload (makePlanLock run.plan run.context))).replay
      writing = some (.ok ())

/-- A preparation that passes has locked the plan and written the lock last. -/
theorem prepareResolved_replay_pass {checks : List CheckResult}
    (h : (prepareResolved resolved_root plan_path).replay steps = some (.ok (.PASS, checks))) :
    ∃ (run : LockedRun plan_path steps) (writing : Trace), run.EndsWith writing := by
  obtain ⟨⟨plan, context⟩, observing, _, rfl, hobserved, hcall⟩ := Script.replay_bind_ok.mp h
  obtain ⟨raw_checks, _, _, rfl, hraw, hvalidate⟩ := Script.replay_bind_ok.mp hcall
  obtain ⟨answer, _, rfl, hlift⟩ := Script.replay_ask.mp hraw
  obtain ⟨rfl, hanswer⟩ := Script.replay_ofExcept.mp hlift
  obtain ⟨environment_checks, _, behind, rfl, hvalid, hrest⟩ := Script.replay_bind_ok.mp hvalidate
  obtain ⟨rfl, hchecks⟩ := Script.replay_ofExcept.mp hvalid
  obtain ⟨rfl, hcomplete⟩ := validatePreflightResults_spec hchecks.symm
  obtain rfl : answer = _ := hanswer.symm
  cases hfound : environment_checks.find? (·.state ≠ .PASS) with
  | some check =>
    rw [hfound] at hrest
    obtain ⟨-, hresult⟩ := Script.replay_done.mp hrest
    have hstate := (Prod.mk.inj (Except.ok.inj hresult)).1
    exact absurd hstate.symm (by simpa using List.find?_some hfound)
  | none =>
    rw [hfound] at hrest
    obtain ⟨current_plan, current_context, lock_path, looking, writing, rfl, hagain, hagrees,
      hlocated, hwritten⟩ := lockPlan_replay_ok hrest
    have hunchanged := agrees_makePlanLock.mp hagrees
    rw [makePlanLock_congr hunchanged] at hwritten
    refine ⟨{
      resolved_root, plan, context, environment_checks, current_plan, current_context, lock_path
      before_preflight := observing
      after_preflight := looking ++ writing
      steps_eq := rfl
      observed := observe_observed hobserved
      complete := hcomplete
      passed := by simpa using List.find?_eq_none.mp hfound
      observed_again := hagain.append_right writing
      unchanged := hunchanged
      located := hlocated.append_right writing }, writing, ⟨?_, hwritten⟩⟩
    exact ⟨observing ++
      ⟨.preflight resolved_root, .ok (.ok (environment_checks.map (·.toCandidate)))⟩ :: looking,
      by simp⟩

/-- Such a write leaves the lock on the disk. -/
theorem LockedRun.EndsWith.holdsLock {run : LockedRun plan_path steps} {writing : Trace}
    {foreign : Disk → Disk → Prop} {disk disk' : Disk} (h : run.EndsWith writing)
    (hmoves : Moves foreign steps disk disk') :
    HoldsLock disk' run.lock_path (makePlanLock run.plan run.context) := by
  obtain ⟨⟨before_, hsteps⟩, hwritten⟩ := h
  obtain ⟨between, -, hwriting⟩ := Script.leads_append.mp (hsteps ▸ hmoves)
  rw [HoldsLock]
  generalize planLockPayload (makePlanLock run.plan run.context) = payload at hwritten ⊢
  have hensures := writeJsonAtomic_ensures
    (fun op answer s s' (hE : Effect foreign op answer s s') => hE) run.lock_path payload between
  obtain ⟨content, hcontent, rfl⟩ := hensures.replay hwriting hwritten
  exact ⟨content, hcontent, Disk.set_self ..⟩

/-- What came before belongs to the run. -/
def LockedRun.prepend (run : LockedRun plan_path steps) (opening : Trace) :
    LockedRun plan_path (opening ++ steps) where
  __ := run
  before_preflight := opening ++ run.before_preflight
  steps_eq := by rw [List.append_assoc, ← run.steps_eq]
  observed := run.observed.append_left opening

/-- Steps before a run do not change its end. -/
theorem LockedRun.EndsWith.prepend {run : LockedRun plan_path steps} {writing : Trace}
    (h : run.EndsWith writing) (opening : Trace) : (run.prepend opening).EndsWith writing := by
  obtain ⟨⟨before_, hsteps⟩, hwritten⟩ := h
  exact ⟨⟨opening ++ before_, by rw [hsteps, List.append_assoc]⟩, hwritten⟩

end Locked

section Results

variable [ByteRuntime] {root plan_path : Path} {steps : Trace} {state : State}
  {checks : List CheckResult}

/-- What `prepare` makes of the outcome of its body. -/
theorem prepare_replay (h : (prepare root plan_path).replay steps = some (.ok (state, checks))) :
    (prepareBody root plan_path).replay steps = some (.ok (state, checks)) ∨
      ∃ failure, (prepareBody root plan_path).replay steps = some (.error failure) ∧
        state = (failureCheck failure).state := by
  obtain ⟨outcome, _, last, rfl, hattempt, hlast⟩ := Script.replay_bind_ok.mp h
  obtain ⟨r, hr, hbody⟩ := Script.replay_attempt.mp hattempt
  obtain rfl := Except.ok.inj hr
  cases outcome with
  | ok result =>
    obtain ⟨rfl, hresult⟩ := Script.replay_done.mp hlast
    rw [List.append_nil]
    exact .inl (Except.ok.inj hresult ▸ hbody)
  | error failure =>
    obtain ⟨rfl, hresult⟩ := Script.replay_done.mp hlast
    rw [List.append_nil]
    exact .inr ⟨failure, hbody, (Prod.mk.inj (Except.ok.inj hresult)).1⟩

/-- The operation is not a call of the preflight. -/
def NoPreflight (op : Op) : Prop := ∀ root, op ≠ .preflight root

omit [ByteRuntime] in
/-- Quiet operations are not the preflight. -/
theorem noPreflight_of_quiet {op : Op} (h : op.Quiet) : NoPreflight op := by
  rintro root rfl
  exact h

omit [ByteRuntime] in
/-- What is not the preflight claims nothing. -/
theorem NoPreflight.rejects {step : Step Op.Answer} (h : NoPreflight step.op) :
    PreflightRejects step.op step.answer := by
  obtain ⟨op, answer⟩ := step
  cases op with
  | preflight root => exact absurd rfl (h root)
  | _ => trivial

/-- There is no second preflight. -/
theorem lockPlan_within (resolved_root plan_path : Path) (initial_snapshot : PlanLock)
    (environment_checks : List CheckResult) :
    (lockPlan resolved_root plan_path initial_snapshot environment_checks).Within NoPreflight
      fun _ => True := by
  have hsound {α : Type} {p : HarnessM α} (hp : Sound p) : p.Within NoPreflight fun _ => True :=
    (hp.imp fun _ => noPreflight_of_quiet).mono fun _ _ => trivial
  refine (hsound (sound_observe _ _)).bind fun seen => ?_
  refine (hsound (sound_lift (validatePlanLock_rejects _ _ _))).bind fun _ => ?_
  refine (hsound (sound_safeEvidencePath _ _)).bind fun lock_path => ?_
  dsimp only
  generalize planLockPayload (makePlanLock seen.1 seen.2) = payload
  refine .bind (.mapError ((writeJsonAtomic_within _ _).imp fun op hop => ?_) fun _ _ => trivial)
    fun _ => .pure
  rintro root rfl
  exact hop

/-- A preflight that claims to pass decides the outcome, and no results are collected. -/
theorem prepareResolved_claims {resolved_root : Path}
    {outcome : Except Failure (State × List CheckResult)} {step : Step Op.Answer}
    (h : (prepareResolved resolved_root plan_path).replay steps = some outcome)
    (hstep : step ∈ steps) (hclaims : ¬PreflightRejects step.op step.answer) :
    (∃ check_id reason, outcome = .error (.HarnessViolation .PASS check_id reason)) ∧
      ∀ root candidates, (⟨.preflight root, .ok (.ok candidates)⟩ : Step Op.Answer) ∉ steps := by
  obtain ⟨e, -, hobserve⟩ | ⟨⟨plan, context⟩, observing, rest, rfl, hobserve, hrest⟩ :=
    Script.replay_bind.mp h
  · have hquiet := ((sound_observe _ _).replay hobserve).1 step hstep
    exact absurd (noPreflight_of_quiet hquiet).rejects hclaims
  have hobserving : ∀ step ∈ observing, NoPreflight step.op := fun step hstep =>
    noPreflight_of_quiet (((sound_observe _ _).replay hobserve).1 step hstep)
  obtain ⟨answer, behind, rfl, hbehind⟩ := Script.replay_ask.mp hrest
  have hafter : ∀ step ∈ behind, NoPreflight step.op := by
    refine (Script.Within.replay (P := fun _ => True) ?_ hbehind).1
    refine (Script.Within.ofExcept fun _ _ => trivial).bind fun raw_checks => ?_
    refine (Script.Within.ofExcept fun _ _ => trivial).bind fun environment_checks => ?_
    cases environment_checks.find? (·.state ≠ .PASS) with
    | some check => exact .pure
    | none => exact lockPlan_within _ _ _ _
  obtain hstep | rfl | hstep : step ∈ observing ∨ step = ⟨_, answer⟩ ∨ step ∈ behind := by
    simpa using hstep
  · exact absurd (hobserving step hstep).rejects hclaims
  · have hother : ∀ root candidates, (⟨.preflight root, .ok (.ok candidates)⟩ : Step Op.Answer) ∈
        observing ++ ⟨.preflight resolved_root, answer⟩ :: behind →
          answer = .ok (.ok candidates) := by
      intro root candidates hmem
      obtain hmem | hmem := List.mem_append.mp hmem
      · exact absurd rfl (hobserving _ hmem root)
      · obtain heq | hmem := List.mem_cons.mp hmem
        · cases heq
          rfl
        · exact absurd rfl (hafter _ hmem root)
    have hclaim {failure : Failure} (hrejects : ¬failure.Rejects) :
        ∃ check_id reason, failure = .HarnessViolation .PASS check_id reason := by
      cases failure with
      | HarnessViolation state check_id reason => exact ⟨_, _, by rw [not_not.mp hrejects]⟩
      | raised error => exact absurd trivial hrejects
    cases answer with
    | error failure =>
      obtain ⟨check_id, reason, rfl⟩ := hclaim hclaims
      refine ⟨⟨check_id, reason, (Script.replay_throw.mp hbehind).2⟩,
        fun root candidates hmem => ?_⟩
      cases hother root candidates hmem
    | ok raw_checks =>
      cases raw_checks with
      | error failure =>
        obtain ⟨check_id, reason, rfl⟩ := hclaim hclaims
        refine ⟨⟨check_id, reason, (Script.replay_throw.mp hbehind).2⟩,
          fun root candidates hmem => ?_⟩
        cases hother root candidates hmem
      | ok candidates => exact absurd trivial hclaims
  · exact absurd (hafter step hstep).rejects hclaims

omit [ByteRuntime] in
/-- Removing a file is not the preflight. -/
theorem noPreflight_of_removing {op : Op} (h : op.Removing) : NoPreflight op := by
  obtain h | ⟨path, rfl⟩ := h
  · exact noPreflight_of_quiet h
  · exact nofun

/-- What is opened in a run that goes on is what the run has opened. -/
theorem RemovesLock.unique {opening rest : Trace} {opened : Except Failure (Path × Path)}
    {lock_path : Path} (h : RemovesLock root (opening ++ rest) lock_path)
    (hopen : (openPreparation root).replay opening = some opened) :
    ∃ resolved_root, opened = .ok (resolved_root, lock_path) := by
  obtain ⟨opening', rest', resolved_root, hsteps, hopen'⟩ := h
  exact ⟨resolved_root, (Script.replay_append_unique hopen hopen' hsteps).2.1⟩

/-- The body ends before the lock is removed, or goes on after it. -/
theorem prepareBody_replay {outcome : Except Failure (State × List CheckResult)}
    (h : (prepareBody root plan_path).replay steps = some outcome) :
    (∃ failure, outcome = .error failure ∧
        (openPreparation root).replay steps = some (.error failure)) ∨
      ∃ resolved_root lock_path opening rest, steps = opening ++ rest ∧
        (openPreparation root).replay opening = some (.ok (resolved_root, lock_path)) ∧
        (prepareResolved resolved_root plan_path).replay rest = some outcome := by
  obtain ⟨failure, rfl, hopen⟩ | ⟨⟨resolved_root, lock_path⟩, opening, rest, rfl, hopen, hrest⟩ :=
    Script.replay_bind.mp h
  · exact .inl ⟨failure, rfl, hopen⟩
  · exact .inr ⟨resolved_root, lock_path, opening, rest, rfl, hopen, hrest⟩

/-- **Preparation.** A run that returns `PASS` has left the lock of a plan and a context that it
has seen twice, clean and with the same seven fields, before and after a preflight with each of
the four results once and passed; a run that returns anything else after the removal of the old
lock has left none: if and only if no violation of the preflight claims to pass. -/
theorem prepare_trustworthy_iff {foreign : Disk → Disk → Prop} {disk disk' : Disk}
    (hreplay : (prepare root plan_path).replay steps = some (.ok (state, checks)))
    (hmoves : Moves foreign steps disk disk')
    (huntouched : ∀ lock_path, RemovesLock root steps lock_path → Untouched foreign lock_path) :
    Trustworthy root plan_path steps state disk' ↔
      ∀ step ∈ steps, PreflightRejects step.op step.answer := by
  obtain ⟨outcome, hbody, hstate⟩ : ∃ outcome, (prepareBody root plan_path).replay steps =
      some outcome ∧ (outcome = .ok (state, checks) ∨
        ∃ failure, outcome = .error failure ∧ state = (failureCheck failure).state) := by
    obtain hbody | ⟨failure, hbody, hstate⟩ := prepare_replay hreplay
    · exact ⟨_, hbody, .inl rfl⟩
    · exact ⟨_, hbody, .inr ⟨failure, rfl, hstate⟩⟩
  obtain ⟨failure, rfl, hopen⟩ | ⟨resolved_root, lock_path, opening, rest, rfl, hopen, hrest⟩ :=
    prepareBody_replay hbody
  · -- the run ends before the old lock is removed
    obtain ⟨hremoving, hrejects⟩ := (openPreparation_within root).replay hopen
    have hfailed : state ≠ .PASS := by
      obtain hok | ⟨failure', hfailure, rfl⟩ := hstate
      · cases hok
      · exact Except.error.inj hfailure ▸ failureCheck_state_ne (hrejects failure rfl)
    refine iff_of_true ⟨fun hpass => absurd hpass hfailed, fun _ lock_path hremoves => ?_⟩
      fun step hstep => (noPreflight_of_removing (hremoving step hstep)).rejects
    rw [← List.append_nil steps] at hremoves
    obtain ⟨_, hopened⟩ := hremoves.unique hopen
    cases hopened
  · have hopening : ∀ step ∈ opening, NoPreflight step.op := fun step hstep =>
      noPreflight_of_removing (((openPreparation_within root).replay hopen).1 step hstep)
    constructor
    · intro htrust step hstep
      by_contra hclaims
      have hstep : step ∈ rest := (List.mem_append.mp hstep).resolve_left fun hmem =>
        hclaims (hopening step hmem).rejects
      obtain ⟨⟨check_id, reason, rfl⟩, hnone⟩ := prepareResolved_claims hrest hstep hclaims
      have hpass : state = .PASS := by
        obtain hok | ⟨failure, hfailure, rfl⟩ := hstate
        · cases hok
        · exact Except.error.inj hfailure ▸ rfl
      obtain ⟨run, -⟩ := htrust.locked hpass
      have hmem := (congrArg (_ ∈ ·) run.steps_eq).mpr
        (List.mem_append_right run.before_preflight List.mem_cons_self)
      obtain hmem | hmem := List.mem_append.mp hmem
      · exact hopening _ hmem _ rfl
      · exact hnone _ _ hmem
    · intro hrejects
      have hrejects := (List.forall_mem_append.mp hrejects).2
      obtain ⟨between, hopened, hbehind⟩ := Script.leads_append.mp hmoves
      obtain ⟨⟨directory, hlock⟩, hnone⟩ :=
        (openPreparation_ensures root).replay hopened hopen _ rfl
      have hforeign := huntouched lock_path ⟨opening, rest, resolved_root, rfl, hopen⟩
      obtain rfl : lock_path = directory.child lockName := hlock
      have hleaves := (prepareResolved_leavesNone hforeign resolved_root plan_path hnone).replay
        (Script.leads_and hrejects hbehind) hrest
      constructor
      · rintro rfl
        obtain rfl | ⟨failure, rfl, hfailed⟩ := hstate
        · obtain ⟨run, writing, hends⟩ := prepareResolved_replay_pass hrest
          exact ⟨run.prepend opening, (hends.prepend opening).holdsLock hmoves⟩
        · exact absurd hfailed.symm (failureCheck_state_ne hleaves.1)
      · intro hfailed lock_path' hremoves
        obtain ⟨_, hopened⟩ := hremoves.unique hopen
        obtain rfl := (Prod.mk.inj (Except.ok.inj hopened)).2
        obtain rfl | ⟨failure, rfl, -⟩ := hstate
        · exact hleaves hfailed
        · exact hleaves.2

end Results

namespace Sample

/-- A machine with a disk, on which Git, the check runner and the preflight answer as they are
told. -/
def machine (git : List Str → Bytes) (runner : Disk → Except Failure RawChecks × Disk)
    (preflight : Except Failure RawChecks) (disk : Disk) : (op : Op) → op.Answer × Disk
  | .resolve path _ => (.ok path, disk)
  | .lstat path => (match disk path with
    | some entry => .ok entry.kind
    | none => .error ⟨.FileNotFoundError, path.asPosix⟩, disk)
  | .readlink path => (.error ⟨.OSError, path.asPosix⟩, disk)
  | .readBytes path => (match disk path with
    | some (.file content) => .ok content
    | _ => .error ⟨.FileNotFoundError, path.asPosix⟩, disk)
  | .mkdir path => match disk path with
    | none => (.ok (), disk.set path (some .directory))
    | some _ => (.error ⟨.FileExistsError, path.asPosix⟩, disk)
  | .unlink path _ => (.ok (), disk.set path none)
  | .createTemporary directory =>
    let temporary_path := directory.child ("tmp" ++ ("1" : Str))
    match disk temporary_path with
    | none => (.ok temporary_path, disk.set temporary_path (some (.file [])))
    | some _ => (.error ⟨.OSError, temporary_path.asPosix⟩, disk)
  | .write path content => match disk path with
    | some (.file old) => (.ok (), disk.set path (some (.file (old ++ content))))
    | _ => (.error ⟨.OSError, path.asPosix⟩, disk.set path (some (.file [])))
  | .flush _ | .fsync _ | .close _ => (.ok (), disk)
  | .replace path target => match disk path with
    | some entry => (.ok (), (disk.set path none).set target (some entry))
    | none => (.error ⟨.FileNotFoundError, path.asPosix⟩, disk)
  | .run command _ _ => (.ok ⟨0, git command.tail, []⟩, disk)
  | .duration => (5, disk)
  | .which name => (some ("/usr/bin/" ++ name), disk)
  | .isFile _ | .isExecutable _ => (true, disk)
  | .versionInfo => ((3, 13, 0), disk)
  | .checkRunner _ _ => runner disk
  | .preflight _ => (preflight, disk)

/-- What the check runner may do on the machine. -/
def Runs (runner : Disk → Except Failure RawChecks × Disk) (disk disk' : Disk) : Prop :=
  disk' = disk ∨ disk' = (runner disk).2

/-- The machine changes its disk as described. -/
theorem machine_effect (git : List Str → Bytes) (runner : Disk → Except Failure RawChecks × Disk)
    (preflight : Except Failure RawChecks) (disk : Disk) (op : Op) :
    Effect (Runs runner) op (machine git runner preflight disk op).1 disk
      (machine git runner preflight disk op).2 := by
  cases op with
  | lstat path =>
    cases h : disk path with
    | none => simp [machine, h, Effect]
    | some entry => simp [machine, h, Effect]
  | mkdir path =>
    cases h : disk path with
    | none => simp [machine, h, Effect]
    | some entry => simp [machine, h, Effect]
  | createTemporary directory =>
    cases h : disk (directory.child ("tmp" ++ ("1" : Str))) with
    | none => simpa [machine, h, Effect] using ⟨_, rfl⟩
    | some entry => simp [machine, h, Effect]
  | write path content =>
    cases h : disk path with
    | none => simpa [machine, h, Effect] using ⟨_, rfl⟩
    | some entry =>
      cases entry with
      | file old => simp [machine, h, Effect]
      | _ => simpa [machine, h, Effect] using ⟨_, rfl⟩
  | replace path target =>
    cases h : disk path with
    | none => simp [machine, h, Effect]
    | some entry => simp [machine, h, Effect]
  | checkRunner root check_ids => exact .inr rfl
  | preflight root => exact .inl rfl
  | run command cwd dont_write_bytecode => exact .inl rfl
  | _ => rfl

/-- What Git says about a clean worktree. -/
def git (args : List Str) : Bytes :=
  let outputs : List (List String × String) :=
    [(["branch", "--show-current"], "docs/7-guide\n"),
      (["rev-parse", "refs/remotes/origin/main"], "1111111111111111111111111111111111111111\n"),
      (["merge-base", "HEAD", "1111111111111111111111111111111111111111"],
        "1111111111111111111111111111111111111111\n"),
      (["rev-parse", "HEAD"], "2222222222222222222222222222222222222222\n")]
  ((outputs.find? fun entry => entry.1.map Str.ofString = args).map fun entry =>
    Bytes.ofString entry.2).getD []

/-- A repository with a policy and a plan. -/
def repository : Disk := fun path =>
  let entries : List (Path × Entry) :=
    [(root, .directory), (root.child "build", .directory), (evidenceDirectory root, .directory),
      (riskPolicyPath root, .file rawPolicy),
      (root.join (.ofStr "harness/plans/7.json"), .file rawPlan)]
  entries.lookup path

/-- A preflight that passes. -/
def passedPreflight : RawChecks :=
  .ok (requiredPreflightCheckIds.map fun check_id =>
    CheckResult.toCandidate { check_id, state := .PASS, reason := "ok" })

/-- A check runner that leaves the disk alone. -/
def idle (disk : Disk) : Except Failure RawChecks × Disk := (.error (.raised ⟨.OSError, []⟩), disk)

/-- Others who are idle touch no file. -/
theorem idle_untouched (path : Path) : Untouched (Runs idle) path := by
  rintro disk disk' (rfl | rfl) <;> rfl

/-- The path of the plan. -/
def planPath : Path := .ofStr "harness/plans/7.json"

/-- The run of `prepare` on the repository. -/
def preparation (preflight : Except Failure RawChecks) :
    Trace × Except Failure (State × List CheckResult) × Disk :=
  (@prepare textRuntime root planPath).exec (machine git idle preflight) repository

/-- The sample run is one of `prepare`, and passes with a preflight that passes. -/
theorem preparation_passes {preflight : Except Failure RawChecks}
    (h : ((preparation preflight).2.1.map Prod.fst).toOption = some .PASS) :
    ∃ checks, (@prepare textRuntime root planPath).replay (preparation preflight).1 =
      some (.ok (.PASS, checks)) := by
  have hreplay := Script.replay_exec (machine git idle preflight)
    (@prepare textRuntime root planPath) repository
  change _ = some (preparation preflight).2.1 at hreplay
  cases hresult : (preparation preflight).2.1 with
  | error failure =>
    rw [hresult] at h
    cases h
  | ok result =>
    obtain ⟨state, checks⟩ := result
    rw [hresult] at h hreplay
    obtain rfl : state = .PASS := Option.some.inj h
    exact ⟨checks, hreplay⟩

/-- The answers of the sample run are those of the machine. -/
theorem preparation_answers {preflight : Except Failure RawChecks}
    {A : (op : Op) → op.Answer → Prop}
    (h : ∀ disk op, A op (machine git idle preflight disk op).1) :
    ∀ step ∈ (preparation preflight).1, A step.op step.answer := Script.exec_answers h _ _

/-- The sample run leads from the sample repository to its end. -/
theorem preparation_moves (preflight : Except Failure RawChecks) :
    Moves (Runs idle) (preparation preflight).1 repository (preparation preflight).2.2 :=
  Script.leads_exec (machine_effect git idle preflight) _ _

end Sample

/-- A preflight that passes leads to a lock. -/
theorem prepare_trustworthy_iff_passed :
    ∃ steps checks disk, (@prepare Sample.textRuntime Sample.root Sample.planPath).replay steps =
        some (.ok (.PASS, checks)) ∧
      @Trustworthy Sample.textRuntime Sample.root Sample.planPath steps .PASS disk := by
  let preflight : Except Failure RawChecks := .ok Sample.passedPreflight
  obtain ⟨checks, hreplay⟩ := Sample.preparation_passes
    (show ((Sample.preparation preflight).2.1.map Prod.fst).toOption = some .PASS by decide +kernel)
  have hrejects : ∀ step ∈ (Sample.preparation preflight).1,
      PreflightRejects step.op step.answer := by
    refine Sample.preparation_answers fun disk op => ?_
    cases op with
    | _ => trivial
  have hiff := @prepare_trustworthy_iff Sample.textRuntime _ _ _ _ _ _ _ _ hreplay
    (Sample.preparation_moves preflight) fun _ _ => Sample.idle_untouched _
  exact ⟨_, checks, _, hreplay, hiff.mpr hrejects⟩

/-- Not for every preflight: one that raises a violation with the state `PASS` passes. -/
theorem not_prepare_trustworthy :
    ¬∀ (_ : ByteRuntime) (root plan_path : Path) (foreign : Disk → Disk → Prop) (steps : Trace)
      (state : State) (checks : List CheckResult) (disk disk' : Disk),
      (prepare root plan_path).replay steps = some (.ok (state, checks)) →
      Moves foreign steps disk disk' →
      (∀ lock_path, RemovesLock root steps lock_path → Untouched foreign lock_path) →
      Trustworthy root plan_path steps state disk' := by
  intro hclaim
  let _ := Sample.textRuntime
  let preflight : Except Failure RawChecks := .error (.HarnessViolation .PASS "preflight" "done")
  obtain ⟨checks, hreplay⟩ := Sample.preparation_passes
    (show ((Sample.preparation preflight).2.1.map Prod.fst).toOption = some .PASS by decide +kernel)
  have htrust := hclaim Sample.textRuntime _ _ _ _ _ _ _ _ hreplay
    (Sample.preparation_moves preflight) fun _ _ => Sample.idle_untouched _
  obtain ⟨run, -⟩ := htrust.locked rfl
  have hmem := (congrArg (_ ∈ ·) run.steps_eq).mpr
    (List.mem_append_right run.before_preflight List.mem_cons_self)
  have hanswers : ∀ step ∈ (Sample.preparation preflight).1, ∀ root answer,
      step = ⟨.preflight root, answer⟩ → answer = preflight := by
    refine Sample.preparation_answers (A := fun op answer => ∀ root answer',
      (⟨op, answer⟩ : Step Op.Answer) = ⟨.preflight root, answer'⟩ → answer' = preflight) ?_
    rintro disk op root answer heq
    cases heq
    rfl
  have hanswer := hanswers _ hmem _ _ rfl
  exact absurd hanswer (by simp [preflight])

end CoffeeOrder.Harness
