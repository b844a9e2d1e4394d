import CoffeeOrder.Harness.Evaluate

/-!
# What the loaders raise

`parse_plan`, `load_risk_policy` and `load_plan_lock` report malformed bytes in their own
terms. Two kinds of errors escape: those of `json.loads` that `_parse_json_object` does not
catch, and those of `int` on an issue number of more than 4300 digits.
-/

namespace CoffeeOrder.Harness

open Kit Python

/-- The number in a plan path or a branch is short enough for `int`. -/
def Convertible (group : Option Str) : Prop := ∀ digits, group = some digits → digits.length ≤ 4300

/-- A number of at most 4300 digits is converted. -/
theorem intOfDigits_eq_ok {digits : Str} (h : digits.length ≤ 4300) :
    intOfDigits digits = .ok (Str.natOfDigits digits) := if_neg (by omega)

/-- A longer one makes `int` raise. -/
theorem exists_of_not_convertible {group : Option Str} (h : ¬Convertible group) :
    ∃ digits error, group = some digits ∧ intOfDigits digits = .error error := by
  simp only [Convertible, not_forall] at h
  obtain ⟨digits, hdigits, hlong⟩ := h
  exact ⟨digits, _, hdigits, if_pos (by omega)⟩

/-- The number in the path of a plan. -/
def planIssue (relative_path : Str) : Option Str :=
  (legacyPlanIssue relative_path).or (readablePlanIssue relative_path)

/-- A path with more digits is an error. -/
theorem planPathMatchesIssue_eq_error {relative_path : Str}
    (h : ¬Convertible (planIssue relative_path))
    (issue : ℤ) : ∃ error, planPathMatchesIssue relative_path issue = .error error := by
  obtain ⟨digits, error, hdigits, herror⟩ := exists_of_not_convertible h
  refine ⟨error, ?_⟩
  unfold planPathMatchesIssue
  rw [planIssue] at hdigits
  rw [hdigits]
  exact Checked.bind_error_left herror

/-- Any other path is compared. -/
theorem planPathMatchesIssue_eq_ok {relative_path : Str} (h : Convertible (planIssue relative_path))
    (issue : ℤ) : ∃ found, planPathMatchesIssue relative_path issue = .ok found := by
  unfold planPathMatchesIssue
  cases hdigits : (legacyPlanIssue relative_path).or (readablePlanIssue relative_path) with
  | none => exact ⟨false, rfl⟩
  | some digits =>
    have hshort := h digits hdigits
    exact ⟨_, Checked.bind_eq_ok.mpr ⟨_, intOfDigits_eq_ok hshort, rfl⟩⟩

/-- A branch with more digits raises. -/
theorem validateBranch_eq_raised {branch : Str} (h : ¬Convertible (branchIssue branch))
    (issue : ℤ) : ∃ error, validateBranch branch issue = .error (.raised error) := by
  obtain ⟨digits, error, hdigits, herror⟩ := exists_of_not_convertible h
  refine ⟨error, ?_⟩
  unfold validateBranch
  rw [hdigits]
  refine Checked.bind_error_left ?_
  rw [herror]
  rfl

section Loaders

variable [ByteRuntime]

/-- `json.loads` returns, or raises what `_parse_json_object` catches. -/
def LoadsCaught (raw : Bytes) : Prop :=
  ∀ error, ByteRuntime.loadsPairs rejectDuplicateJsonKeys raw = .error error →
    error.type = .DuplicateJsonKey ∨ error.type = .UnicodeDecodeError ∨
      error.type = .JSONDecodeError

/-- The bytes are a JSON object. -/
def LoadsObject (raw : Bytes) (payload : JsonObject) : Prop :=
  ByteRuntime.loadsPairs rejectDuplicateJsonKeys raw = .ok (.obj payload)

/-- `_parse_json_object` returns just the objects that can be loaded. -/
theorem parseJsonObject_eq_ok {raw : Bytes} {check_id label : Str} {payload : JsonObject} :
    parseJsonObject raw check_id label = .ok payload ↔ LoadsObject raw payload := by
  unfold parseJsonObject LoadsObject
  cases ByteRuntime.loadsPairs rejectDuplicateJsonKeys raw with
  | ok value => cases value <;> simp
  | error error =>
    dsimp only
    split
    · simp
    · split <;> simp

/-- The helper raises its violation if `json.loads` raises what is caught. -/
theorem parseJsonObject_violation {raw : Bytes} (h : LoadsCaught raw) (check_id label : Str) :
    ErrorsIn Failure.IsViolation (parseJsonObject raw check_id label) := by
  refine parseJsonObject_raises (fun _ => trivial) (fun error herror h1 h2 h3 => ?_) label
  obtain hcaught | hcaught | hcaught := h error herror
  · exact absurd hcaught h1
  · exact absurd hcaught h2
  · exact absurd hcaught h3

/-- Other errors pass through it. -/
theorem parseJsonObject_raised {raw : Bytes} (h : ¬LoadsCaught raw) :
    ∃ error, ∀ check_id label, parseJsonObject raw check_id label = .error (.raised error) := by
  simp only [LoadsCaught, not_forall, not_or] at h
  obtain ⟨error, herror, h1, h2, h3⟩ := h
  refine ⟨error, fun check_id label => ?_⟩
  unfold parseJsonObject
  rw [herror]
  simp [h1, h2, h3]

/-- Whenever `parse_plan` looks at the path of the plan, its number is short enough. -/
def PlanConvertible (raw : Bytes) (relative_path : Str) : Prop :=
  ∀ payload issue, LoadsObject raw payload → ReadsPath payload issue →
    Convertible (planIssue relative_path)

/-- `parse_plan` gets to the path of a plan whose first fields are fine. -/
theorem parsePlan_error_of_path {raw : Bytes} {relative_path : Str} {payload : JsonObject}
    {issue : ℤ} {error : Failure} (hpayload : LoadsObject raw payload)
    (hreads : ReadsPath payload issue)
    (herror : orRaise (planPathMatchesIssue relative_path issue) = .error error)
    (known_risks : List Str) : parsePlan raw relative_path known_risks = .error error := by
  obtain ⟨hunknown, hmissing⟩ := JsonObject.hasFields_iff.mp hreads.fields
  refine Checked.bind_error_right (parseJsonObject_eq_ok.mpr hpayload) ?_
  refine Checked.raiseIf_bind_error (not_sortedSet_filter_ne_nil.mpr hunknown) ?_
  refine Checked.raiseIf_bind_error (not_sortedSet_filter_ne_nil.mpr hmissing) ?_
  refine Checked.bind_error_right hreads.issue_item ?_
  refine Checked.bind_error_right (positiveIssue_eq_ok_iff.mpr ⟨rfl, hreads.issue_pos⟩) ?_
  refine Checked.bind_error_right hreads.target ?_
  refine Checked.bind_error_right (nonEmptyString_eq_ok_iff.mpr ⟨rfl, by decide, by decide⟩) ?_
  refine Checked.raiseIf_bind_error (not_not.mpr rfl) ?_
  exact Checked.bind_error_left herror

/-- **`parse_plan`** raises violations only, if and only if nothing escapes. -/
theorem parsePlan_reported_iff (raw : Bytes) (relative_path : Str) (known_risks : List Str) :
    ErrorsIn Failure.IsViolation (parsePlan raw relative_path known_risks) ↔
      LoadsCaught raw ∧ PlanConvertible raw relative_path := by
  constructor
  · refine fun h => ⟨?_, fun payload issue hpayload hreads => ?_⟩
    · by_contra hloads
      obtain ⟨error, herror⟩ := parseJsonObject_raised hloads
      exact h _ (Checked.bind_error_left (herror _ _))
    · by_contra hpath
      obtain ⟨error, herror⟩ := planPathMatchesIssue_eq_error hpath issue
      refine h (.raised error) (parsePlan_error_of_path hpayload hreads ?_ known_risks)
      exact congrArg (Except.mapError Failure.raised) herror
  · rintro ⟨hloads, hpath⟩
    refine parsePlan_raises (fun _ => trivial) (parseJsonObject_violation hloads _ _) ?_ known_risks
    intro payload issue hpayload hreads
    obtain ⟨found, hfound⟩ := planPathMatchesIssue_eq_ok
      (hpath payload issue (parseJsonObject_eq_ok.mp hpayload) hreads) issue
    exact hfound ▸ .ok

/-- The violation of `load_risk_policy`. -/
def IsPolicyError (e : Failure) : Prop := ∃ reason, e = policyError reason

/-- **`load_risk_policy`** raises its own violation only, if and only if nothing escapes. -/
theorem parseRiskPolicy_reported_iff (raw : Bytes) :
    ErrorsIn IsPolicyError (parseRiskPolicy raw) ↔ LoadsCaught raw := by
  constructor
  · intro h
    by_contra hloads
    obtain ⟨error, herror⟩ := parseJsonObject_raised hloads
    have hraised : parseRiskPolicy raw = .error (.raised error) := by
      refine Checked.bind_error_left ?_
      rw [herror]
      rfl
    obtain ⟨reason, hreason⟩ := h _ hraised
    exact nomatch hreason
  · intro hloads
    refine parseRiskPolicy_raises (fun reason => ⟨reason, rfl⟩) ?_
    exact (parseJsonObject_violation hloads _ _).mapError
      (Failure.restate_violation fun _ _ reason => ⟨reason, rfl⟩)

/-- Whenever `load_plan_lock` looks at the plan path or the branch, its number is short enough. -/
def LockConvertible (raw : Bytes) : Prop :=
  ∀ payload lock, LoadsObject raw payload → ReadsLock payload lock →
    Convertible (planIssue lock.plan_path) ∧
      (planPathMatchesIssue lock.plan_path lock.issue = .ok true → lock.target_branch = "main" →
        Convertible (branchIssue lock.branch))

/-- `load_plan_lock` gets to the paths of a lock whose fields are fine. -/
theorem parsePlanLock_error_of_path {raw : Bytes} {payload : JsonObject} {lock : PlanLock}
    {error : Failure} (hpayload : LoadsObject raw payload) (hreads : ReadsLock payload lock)
    (herror : orRaise (planPathMatchesIssue lock.plan_path lock.issue) = .error error ∨
      planPathMatchesIssue lock.plan_path lock.issue = .ok true ∧ lock.target_branch = "main" ∧
        (validateBranch lock.branch lock.issue).mapError
          (.restate fun _ _ reason => planLockError reason) = .error error) :
    parsePlanLock raw = .error error := by
  have hstring {key value : Str}
      (hread : payload.item key = .ok (.str value) ∧ IsLockString value) {β : Type}
      {f : Str → Except Failure β} (hf : f value = .error error) :
      (do f (← lockString (← payload.item key) key)) = .error error :=
    Checked.bind_error_right hread.1
      (Checked.bind_error_right (lockString_eq_ok_iff.mpr ⟨rfl, hread.2⟩) hf)
  have hstrings := hreads.strings
  simp only [PlanLock.strings, List.forall_mem_cons] at hstrings
  obtain ⟨hplanPath, hplanHash, htarget, hbranchName, hbase, hmerge, -⟩ := hstrings
  refine Checked.bind_error_right
    (Checked.mapError_eq_ok.mpr (parseJsonObject_eq_ok.mpr hpayload)) ?_
  refine Checked.raiseIf_bind_error (not_not.mpr hreads.fields) ?_
  refine Checked.bind_error_right hreads.version_item ?_
  refine Checked.bind_error_right (schemaVersionOne_eq_ok_iff.mpr ⟨rfl, hreads.version_one⟩) ?_
  refine Checked.bind_error_right hreads.issue_item ?_
  refine Checked.bind_error_right (positiveIssue_eq_ok_iff.mpr ⟨rfl, hreads.issue_pos⟩) ?_
  refine hstring hplanPath (hstring hplanHash (hstring htarget ?_))
  refine hstring hbranchName (hstring hbase (hstring hmerge ?_))
  obtain hpath | ⟨hmatches, hmain, hbranch⟩ := herror
  · exact Checked.bind_error_left hpath
  · refine Checked.bind_error_right (orRaise_eq_ok.mpr hmatches) ?_
    refine Checked.raiseIf_bind_error (by decide) ?_
    refine Checked.raiseIf_bind_error (not_not.mpr hmain) ?_
    exact Checked.bind_error_left hbranch

/-- The violation of `load_plan_lock`. -/
def IsPlanLockError (e : Failure) : Prop := ∃ reason, e = planLockError reason

/-- **`load_plan_lock`** raises its own violation only, if and only if nothing escapes. -/
theorem parsePlanLock_reported_iff (raw : Bytes) :
    ErrorsIn IsPlanLockError (parsePlanLock raw) ↔ LoadsCaught raw ∧ LockConvertible raw := by
  have hescapes {error : Exc} (h : ErrorsIn IsPlanLockError (parsePlanLock raw)) :
      parsePlanLock raw ≠ .error (.raised error) := by
    intro hraised
    obtain ⟨reason, hreason⟩ := h _ hraised
    exact nomatch hreason
  have hrestated (e : Failure) (he : e.IsViolation) :
      IsPlanLockError (e.restate fun _ _ reason => planLockError reason) :=
    Failure.restate_violation (fun _ _ reason => ⟨reason, rfl⟩) e he
  constructor
  · refine fun h => ⟨?_, fun payload lock hpayload hreads => ⟨?_, fun hmatches hmain => ?_⟩⟩
    · by_contra hloads
      obtain ⟨error, herror⟩ := parseJsonObject_raised hloads
      have hraised : parsePlanLock raw = .error (.raised error) := by
        apply Checked.bind_error_left
        rw [herror]
        rfl
      exact hescapes h hraised
    · by_contra hpath
      obtain ⟨error, herror⟩ := planPathMatchesIssue_eq_error hpath lock.issue
      have hraised := congrArg (Except.mapError Failure.raised) herror
      exact hescapes h (parsePlanLock_error_of_path hpayload hreads (.inl hraised))
    · by_contra hbranch
      obtain ⟨error, herror⟩ := validateBranch_eq_raised hbranch lock.issue
      have hraised := congrArg
        (Except.mapError (Failure.restate fun _ _ reason => planLockError reason)) herror
      exact hescapes h
        (parsePlanLock_error_of_path hpayload hreads (.inr ⟨hmatches, hmain, hraised⟩))
  · rintro ⟨hloads, hnumbers⟩
    refine parsePlanLock_raises (fun reason => ⟨reason, rfl⟩)
      ((parseJsonObject_violation hloads _ _).mapError hrestated) ?_ ?_
    · intro payload lock hpayload hreads
      obtain ⟨hpath, -⟩ := hnumbers payload lock (parseJsonObject_eq_ok.mp hpayload) hreads
      obtain ⟨found, hfound⟩ := planPathMatchesIssue_eq_ok hpath lock.issue
      exact hfound ▸ .ok
    · intro payload lock hpayload hreads hmatches hmain
      obtain ⟨-, hbranch⟩ := hnumbers payload lock (parseJsonObject_eq_ok.mp hpayload) hreads
      refine ErrorsIn.mapError (P := Failure.IsViolation) ?_ hrestated
      refine validateBranch_raises (fun _ => trivial) (fun digits hdigits => ?_) lock.issue
      rw [intOfDigits_eq_ok (hbranch hmatches hmain digits hdigits)]
      exact .ok

/-- Every lock that is read has the formats of its fields. -/
theorem parsePlanLock_wellFormed {raw : Bytes} {lock : PlanLock}
    (h : parsePlanLock raw = .ok lock) : lock.WellFormed := by
  simp only [parsePlanLock, Checked.bind_eq_ok, Checked.raiseIf_eq_ok, Checked.mapError_eq_ok,
    Checked.pure_eq_ok, exists_and_left, exists_const, orRaise_eq_ok, not_not] at h
  obtain ⟨payload, -, -, rawVersion, -, version, hversion, rawIssue, -, issue, hissue, -, -,
    plan_path, -, -, -, plan_hash, -, -, -, target_branch, -, -, -, branch, -, -, -, base_tip_sha,
    -, -, -, merge_base_sha, -, path_matches, hpath, hmatches, hmain, _, hbranch, hhash, hbase,
    hmerge, rfl⟩ := h
  obtain rfl : path_matches = true := by simpa using hmatches
  exact ⟨(schemaVersionOne_eq_ok_iff.mp hversion).2, positiveIssue_eq_ok hissue, hpath, hmain,
    hbranch, by simpa using hhash, by simpa using hbase, by simpa using hmerge⟩

/-- The loader parses the bytes that it has read. -/
theorem loadPlanLock_replay (path : Path) (raw : Bytes) :
    (loadPlanLock path).replay [⟨.readBytes path, .ok raw⟩] = some (parsePlanLock raw) :=
  Script.replay_ask.mpr ⟨.ok raw, [], rfl, Script.replay_ofExcept.mpr ⟨rfl, rfl⟩⟩

/-- **When malformed input is reported in the loader's own terms.** For all bytes, each of the
three loaders returns or raises its own violation if and only if `json.loads` raises nothing
but what is caught, and no issue number that is converted has more than 4300 digits. -/
theorem loaders_report_iff (raw : Bytes) (relative_path : Str) (known_risks : List Str)
    (path : Path) :
    (((∃ plan, parsePlan raw relative_path known_risks = .ok plan) ∨
        ∃ state check_id reason, parsePlan raw relative_path known_risks =
          .error (.HarnessViolation state check_id reason)) ↔
      LoadsCaught raw ∧ PlanConvertible raw relative_path) ∧
    (((∃ policy, (loadRiskPolicy path).replay [⟨.readBytes path, .ok raw⟩] = some (.ok policy)) ∨
        ∃ reason, (loadRiskPolicy path).replay [⟨.readBytes path, .ok raw⟩] =
          some (.error (.HarnessViolation .FAIL "policy.schema" reason))) ↔ LoadsCaught raw) ∧
    (((∃ lock, (loadPlanLock path).replay [⟨.readBytes path, .ok raw⟩] = some (.ok lock) ∧
          lock.WellFormed) ∨
        ∃ reason, (loadPlanLock path).replay [⟨.readBytes path, .ok raw⟩] =
          some (.error (.HarnessViolation .REPLAN_REQUIRED "plan.lock" reason))) ↔
      LoadsCaught raw ∧ LockConvertible raw) := by
  refine ⟨?_, ?_, ?_⟩
  · rw [← parsePlan_reported_iff raw relative_path known_risks, ErrorsIn.iff_exists]
    refine or_congr_right ⟨?_, ?_⟩
    · rintro ⟨state, check_id, reason, h⟩
      exact ⟨.HarnessViolation state check_id reason, trivial, h⟩
    · rintro ⟨e, he, h⟩
      cases e with
      | HarnessViolation state check_id reason => exact ⟨state, check_id, reason, h⟩
      | raised error => exact absurd he id
  · have hreplay : (loadRiskPolicy path).replay [⟨.readBytes path, .ok raw⟩] =
        some (parseRiskPolicy raw) :=
      Script.replay_ask.mpr ⟨.ok raw, [], rfl, Script.replay_ofExcept.mpr ⟨rfl, rfl⟩⟩
    simp only [hreplay, Option.some.injEq]
    exact ErrorsIn.iff_exists_eq.symm.trans (parseRiskPolicy_reported_iff raw)
  · have hformats (lock : PlanLock) :
        parsePlanLock raw = .ok lock ∧ lock.WellFormed ↔ parsePlanLock raw = .ok lock :=
      and_iff_left_of_imp parsePlanLock_wellFormed
    simp only [loadPlanLock_replay, Option.some.injEq, hformats]
    exact ErrorsIn.iff_exists_eq.symm.trans (parsePlanLock_reported_iff raw)

end Loaders

namespace Sample

/-- A hundred thousand opening brackets. -/
def nestedArray : Bytes := List.replicate 100000 0x5b

/-- The exception of the decoder on them. -/
def recursionError : Exc := ⟨.other "RecursionError", "maximum recursion depth exceeded"⟩

/-- A runtime whose decoder does not get through the brackets. -/
abbrev nestedRuntime : ByteRuntime where
  toRuntime := runtime.toRuntime
  loadsPairs hook raw :=
    if raw = nestedArray then .error recursionError else runtime.loadsPairs hook raw
  sha256 := runtime.sha256
  decodeReplace := runtime.decodeReplace
  isWordChar := runtime.isWordChar

/-- The sample is nested too deeply. -/
theorem loads_nestedArray (hook : List (Str × Json) → Except Exc Json) :
    nestedRuntime.loadsPairs hook nestedArray = .error recursionError := if_pos rfl

/-- What the decoder raises. -/
theorem nestedRuntime_raises {hook : List (Str × Json) → Except Exc Json} {raw : Bytes}
    {error : Exc} (h : nestedRuntime.loadsPairs hook raw = .error error) :
    error.type ∈ ([.JSONDecodeError, .UnicodeDecodeError, .ValueError, .DuplicateJsonKey,
      .other "RecursionError"] : List ExcType) := by
  have hdecode : ∀ {error : Exc}, runtime.loadsPairs hook raw = .error error →
      error.type = .JSONDecodeError := by
    intro error h
    dsimp only [ByteRuntime.loadsPairs, runtime] at h
    split at h
    · exact nomatch h
    · split at h
      · exact nomatch h
      · split at h
        · exact nomatch h
        · exact Except.error.inj h ▸ rfl
  change (if raw = nestedArray then _ else _) = _ at h
  split at h
  · obtain rfl := Except.error.inj h
    decide
  · rw [hdecode h]
    decide

end Sample

/-- Not for every input: brackets nested too deep make the loader of the lock raise what
`json.loads` raises. -/
theorem not_loaders_report :
    ¬∀ (python : ByteRuntime), (∀ hook raw error, python.loadsPairs hook raw = .error error →
        error.type ∈ ([.JSONDecodeError, .UnicodeDecodeError, .ValueError, .DuplicateJsonKey,
          .other "RecursionError"] : List ExcType)) →
      ∀ (raw : Bytes) (path : Path),
        (∃ lock, (@loadPlanLock python path).replay [⟨.readBytes path, .ok raw⟩] =
          some (.ok lock)) ∨
          ∃ reason, (@loadPlanLock python path).replay [⟨.readBytes path, .ok raw⟩] =
            some (.error (.HarnessViolation .REPLAN_REQUIRED "plan.lock" reason)) := by
  intro hclaim
  have hcaught : ¬@LoadsCaught Sample.nestedRuntime Sample.nestedArray := fun hcaught => by
    have htype := hcaught _ (Sample.loads_nestedArray _)
    exact absurd htype (by decide)
  have hreported := mt (@parsePlanLock_reported_iff Sample.nestedRuntime Sample.nestedArray).mp
    fun h => hcaught h.1
  refine hreported (ErrorsIn.iff_exists_eq.mpr ?_)
  have hresult := hclaim Sample.nestedRuntime (fun _ _ _ => Sample.nestedRuntime_raises)
    Sample.nestedArray (.ofStr "/repo/build/harness/plan.lock.json")
  simp only [@loadPlanLock_replay Sample.nestedRuntime, Option.some.injEq] at hresult
  exact hresult

end CoffeeOrder.Harness
