import CoffeeOrder.Harness.Gate
import CoffeeOrder.Harness.System

/-!
# Check runners and their results

A check runner may return anything. `validate_check_runner_results` accepts exactly the
complete lists of results, and the built-in runner produces such a list unless a risk
policy asks for check ids that it cannot tell from its own.
-/

namespace CoffeeOrder.Harness

open Kit Python

/-- `REQUIRED_PREFLIGHT_CHECK_IDS`. -/
def requiredPreflightCheckIds : List Str :=
  ["environment.python", "environment.java", "environment.docker", "environment.java17-toolchain"]

/-- The elements of a tuple, if they are all strings. -/
def FieldValue.strs : List FieldValue → Option (List Str)
  | [] => some []
  | .str s :: items => (FieldValue.strs items).map (s :: ·)
  | _ :: _ => none

/-- The `check_id` of a result. -/
def schemaCheckId (source_label : Str) (value : FieldValue) : Except Str Str := do
  let refusal : Str := source_label ++ " check_id가 올바르지 않습니다."
  let .str check_id := value | throw refusal
  raiseIf (check_id = [] ∨ check_id ≠ check_id.strip ∨ check_id.any CodePoint.isControl) refusal
  return check_id

/-- The `exit_code` of a result. -/
def schemaExitCode (refusal : Str) : FieldValue → Except Str (Option ℤ)
  | .null => return none
  | .int code => return some code
  | _ => throw refusal

/-- The `duration_ms` of a result. -/
def schemaDuration (refusal : Str) : FieldValue → Except Str (Option ℤ)
  | .null => return none
  | .int ms => do
    raiseIf (ms < 0) refusal
    return some ms
  | _ => throw refusal

/-- `_check_result_schema_error`: its text, or the result if there is none. -/
def checkResultSchema (check : Candidate) (source_label : Str) : Except Str CheckResult := do
  let .checkResult check_id state reason command exit_code duration_ms := check
    | throw (source_label ++ " 결과는 CheckResult여야 합니다.")
  let check_id ← schemaCheckId source_label check_id
  let .state state := state | throw (source_label ++ " state가 올바르지 않습니다: " ++ check_id)
  let .str reason := reason | throw (source_label ++ " reason이 문자열이 아닙니다: " ++ check_id)
  let .tuple arguments := command
    | throw (source_label ++ " command가 문자열 tuple이 아닙니다: " ++ check_id)
  let some command := FieldValue.strs arguments
    | throw (source_label ++ " command가 문자열 tuple이 아닙니다: " ++ check_id)
  let exit_code ←
    schemaExitCode (source_label ++ " exit_code가 올바르지 않습니다: " ++ check_id) exit_code
  let duration_ms ←
    schemaDuration (source_label ++ " duration_ms가 올바르지 않습니다: " ++ check_id) duration_ms
  return ⟨check_id, state, reason, command, exit_code, duration_ms⟩

/-- The loop over the candidates: the results before the first that has an error, and the
text of the error. -/
def scanCandidates : List Candidate → List CheckResult × Option Str
  | [] => ([], none)
  | candidate :: candidates =>
    match checkResultSchema candidate "check runner" with
    | .error schema_error => ([], some schema_error)
    | .ok check =>
      let scanned := scanCandidates candidates
      (check :: scanned.1, scanned.2)

/-- The check that reports what is wrong with the runner's results. -/
def runnerError (reason : Str) : CheckResult :=
  { check_id := "checks.runner", state := .FAIL, reason }

section Validation

variable [Runtime]

/-- The comparison of the ids with the requested ones: the first thing that is wrong. -/
def checkIdsError (check_ids requested : List Str) : Option Str :=
  let duplicate_ids := Str.sortedSet (check_ids.filter fun check_id => check_ids.count check_id > 1)
  let preflight := if ("gradle.test" : Str) ∈ requested then requiredPreflightCheckIds else []
  let missing := Str.sortedSet ((requested ++ preflight).filter (· ∉ check_ids))
  let unknown_extras := Str.sortedSet
    (check_ids.filter fun check_id => check_id ∉ requested ∧ check_id ∉ preflight)
  if duplicate_ids ≠ [] then
    some ("check runner check_id가 중복되었습니다: " ++ listRepr duplicate_ids)
  else if missing ≠ [] then
    some ("필수 check 결과가 누락되었습니다: " ++ listRepr missing)
  else if unknown_extras ≠ [] then
    some ("허용되지 않은 추가 check 결과가 있습니다: " ++ listRepr unknown_extras)
  else none

/-- `validate_check_runner_results`. -/
def validateCheckRunnerResults (raw_checks : RawChecks) (requested_ids : List Str) :
    Except Failure (List CheckResult × Option CheckResult) :=
  match raw_checks with
  | .error (.raised error) =>
    if error.type = .TypeError ∨ error.isValueError then
      .ok ([], some (runnerError ("check runner 결과를 해석할 수 없습니다: " ++ error.text)))
    else .error (.raised error)
  | .error violation => .error violation
  | .ok candidates =>
    match scanCandidates candidates with
    | (valid_checks, some schema_error) => .ok (valid_checks, some (runnerError schema_error))
    | (valid_checks, none) =>
      .ok (valid_checks,
        (checkIdsError (valid_checks.map (·.check_id)) requested_ids).map runnerError)

end Validation

/-- The value of an optional number. -/
def FieldValue.ofOption : Option ℤ → FieldValue
  | none => .null
  | some n => .int n

/-- A result as an element of what a check runner returned. -/
def CheckResult.toCandidate (check : CheckResult) : Candidate :=
  .checkResult (.str check.check_id) (.state check.state) (.str check.reason)
    (.tuple (check.command.map .str)) (.ofOption check.exit_code) (.ofOption check.duration_ms)

/-- A field with an optional number shows the number. -/
theorem FieldValue.ofOption_injective : Function.Injective FieldValue.ofOption := by
  intro a b h
  cases a <;> cases b <;> simp_all [FieldValue.ofOption]

/-- A result is known by its fields. -/
theorem CheckResult.toCandidate_injective : Function.Injective CheckResult.toCandidate := by
  rintro ⟨id, state, reason, command, code, duration⟩ ⟨id', state', reason', command', code',
    duration'⟩ h
  simp only [toCandidate, Candidate.checkResult.injEq, FieldValue.str.injEq, FieldValue.state.injEq,
    FieldValue.tuple.injEq, FieldValue.ofOption_injective.eq_iff] at h
  obtain ⟨rfl, rfl, rfl, hcommand, rfl, rfl⟩ := h
  rw [List.map_injective_iff.mpr (fun _ _ => FieldValue.str.inj) hcommand]

/-- What the schema asks of a result besides the types of its fields. -/
structure CheckResult.SchemaValid (check : CheckResult) : Prop where
  id_nonempty : check.check_id ≠ []
  id_stripped : check.check_id.strip = check.check_id
  id_printable : ∀ c ∈ check.check_id, ¬c.isControl = true
  duration_nonneg : ∀ ms, check.duration_ms = some ms → 0 ≤ ms

/-- A field is a list of strings if its items are strings. -/
theorem FieldValue.strs_eq_some {items : List FieldValue} {ss : List Str} :
    FieldValue.strs items = some ss ↔ items = ss.map .str := by
  induction items generalizing ss with
  | nil => cases ss <;> simp [FieldValue.strs]
  | cons item items ih =>
    cases item with
    | str s =>
      rw [FieldValue.strs, Option.map_eq_some_iff]
      simp only [ih]
      constructor
      · rintro ⟨rest, rfl, rfl⟩
        rfl
      · intro h
        cases ss with
        | nil => exact nomatch h
        | cons t ts =>
          obtain ⟨hs, hts⟩ := List.cons.inj h
          exact ⟨ts, hts, by rw [FieldValue.str.inj hs]⟩
    | _ => cases ss <;> simp [FieldValue.strs]

/-- The accepted ids are stripped strings without control characters. -/
theorem schemaCheckId_eq_ok {label : Str} {value : FieldValue} {check_id : Str} :
    schemaCheckId label value = .ok check_id ↔ value = .str check_id ∧ check_id ≠ [] ∧
      Str.strip check_id = check_id ∧ ∀ c ∈ check_id, ¬CodePoint.isControl c = true := by
  cases value with
  | str s =>
    refine Checked.raiseIf_bind_eq_ok.trans ?_
    rw [Checked.pure_eq_ok]
    constructor
    · rintro ⟨hvalid, rfl⟩
      simp only [not_or, not_not, List.any_eq_true, not_exists, not_and] at hvalid
      exact ⟨rfl, hvalid.1, hvalid.2.1.symm, hvalid.2.2⟩
    · rintro ⟨hs, hne, hstrip, hprintable⟩
      obtain rfl := FieldValue.str.inj hs
      refine ⟨?_, rfl⟩
      simp only [not_or, not_not, List.any_eq_true, not_exists, not_and]
      exact ⟨hne, hstrip.symm, hprintable⟩
  | _ => exact iff_of_false nofun (fun h => nomatch h.1)

/-- The accepted exit codes are integers or missing. -/
theorem schemaExitCode_eq_ok {refusal : Str} {value : FieldValue} {code : Option ℤ} :
    schemaExitCode refusal value = .ok code ↔ value = .ofOption code := by
  cases value <;> cases code <;>
    simp [schemaExitCode, FieldValue.ofOption, pure, Except.pure, throw, throwThe,
      MonadExceptOf.throw]

/-- The accepted durations are natural numbers or missing. -/
theorem schemaDuration_eq_ok {refusal : Str} {value : FieldValue} {duration : Option ℤ} :
    schemaDuration refusal value = .ok duration ↔
      value = .ofOption duration ∧ ∀ ms, duration = some ms → 0 ≤ ms := by
  cases value with
  | int n =>
    refine Checked.raiseIf_bind_eq_ok.trans ?_
    rw [Checked.pure_eq_ok]
    cases duration <;> simp [FieldValue.ofOption]
    grind
  | null => cases duration <;> simp [schemaDuration, FieldValue.ofOption]
  | _ => cases duration <;> simp [schemaDuration, FieldValue.ofOption]

/-- A valid result passes the schema. -/
theorem CheckResult.SchemaValid.accepted {check : CheckResult} (h : check.SchemaValid)
    (label : Str) : checkResultSchema check.toCandidate label = .ok check := by
  have hid : schemaCheckId label (.str check.check_id) = .ok check.check_id :=
    schemaCheckId_eq_ok.mpr ⟨rfl, h.id_nonempty, h.id_stripped, h.id_printable⟩
  have hcommand : FieldValue.strs (check.command.map .str) = some check.command :=
    FieldValue.strs_eq_some.mpr rfl
  have hcode (refusal : Str) :
      schemaExitCode refusal (.ofOption check.exit_code) = .ok check.exit_code :=
    schemaExitCode_eq_ok.mpr rfl
  have hduration (refusal : Str) :
      schemaDuration refusal (.ofOption check.duration_ms) = .ok check.duration_ms :=
    schemaDuration_eq_ok.mpr ⟨rfl, h.duration_nonneg⟩
  refine Checked.bind_eq_ok.mpr ⟨_, hid, ?_⟩
  simp only [hcommand]
  exact Checked.bind_eq_ok.mpr ⟨_, hcode _, Checked.bind_eq_ok.mpr ⟨_, hduration _, rfl⟩⟩

/-- The schema accepts exactly the valid results, and returns them unchanged. -/
theorem checkResultSchema_eq_ok {candidate : Candidate} {label : Str} {check : CheckResult} :
    checkResultSchema candidate label = .ok check ↔
      candidate = check.toCandidate ∧ check.SchemaValid := by
  refine ⟨fun h => ?_, fun ⟨hcandidate, hvalid⟩ => hcandidate ▸ hvalid.accepted label⟩
  unfold checkResultSchema at h
  cases candidate with
  | other => exact nomatch h
  | checkResult check_id state reason command exit_code duration_ms =>
    obtain ⟨id, hid, hfields⟩ := Checked.bind_eq_ok.mp h
    obtain ⟨rfl, hne, hstrip, hprintable⟩ := schemaCheckId_eq_ok.mp hid
    cases state with
    | state state =>
      cases reason with
      | str reason =>
        cases command with
        | tuple arguments =>
          cases harguments : FieldValue.strs arguments with
          | none =>
            simp only [harguments] at hfields
            exact nomatch hfields
          | some command =>
            obtain rfl := FieldValue.strs_eq_some.mp harguments
            simp only [harguments] at hfields
            obtain ⟨code, hcode, hnumbers⟩ := Checked.bind_eq_ok.mp hfields
            obtain rfl := schemaExitCode_eq_ok.mp hcode
            obtain ⟨duration, hduration, hcheck⟩ := Checked.bind_eq_ok.mp hnumbers
            obtain ⟨rfl, hnonneg⟩ := schemaDuration_eq_ok.mp hduration
            obtain rfl := Checked.pure_eq_ok.mp hcheck
            exact ⟨rfl, hne, hstrip, hprintable, hnonneg⟩
        | _ => exact nomatch hfields
      | _ => exact nomatch hfields
    | _ => exact nomatch hfields

/-- The candidate is a valid result. -/
def Candidate.Accepted (candidate : Candidate) : Prop :=
  ∃ check : CheckResult, candidate = check.toCandidate ∧ check.SchemaValid

/-- The loop returns the results up to the first candidate that is not valid. -/
theorem scanCandidates_spec (candidates : List Candidate) :
    ∃ rest, candidates = (scanCandidates candidates).1.map (·.toCandidate) ++ rest ∧
      (∀ check ∈ (scanCandidates candidates).1, check.SchemaValid) ∧
      (∀ bad, rest.head? = some bad → ¬bad.Accepted) ∧
      ((scanCandidates candidates).2 = none ↔ rest = []) := by
  induction candidates with
  | nil => exact ⟨[], by simp [scanCandidates]⟩
  | cons candidate candidates ih =>
    unfold scanCandidates
    cases hschema : checkResultSchema candidate "check runner" with
    | error reason =>
      refine ⟨candidate :: candidates, by simp, by simp, ?_, by simp⟩
      rintro bad hbad ⟨check, rfl, hvalid⟩
      obtain rfl := Option.some.inj hbad
      exact nomatch hschema.symm.trans (hvalid.accepted _)
    | ok check =>
      obtain ⟨rfl, hvalid⟩ := checkResultSchema_eq_ok.mp hschema
      obtain ⟨rest, hsplit, hall, hbad, hnone⟩ := ih
      exact ⟨rest, congrArg _ hsplit, List.forall_mem_cons.mpr ⟨hvalid, hall⟩, hbad, hnone⟩

/-- Valid results are all returned. -/
theorem scanCandidates_of_valid {checks : List CheckResult}
    (h : ∀ check ∈ checks, check.SchemaValid) :
    scanCandidates (checks.map (·.toCandidate)) = (checks, none) := by
  induction checks with
  | nil => rfl
  | cons check checks ih =>
    obtain ⟨hcheck, hchecks⟩ := List.forall_mem_cons.mp h
    rw [List.map_cons, scanCandidates, hcheck.accepted, ih hchecks]

/-- The results are valid, no id occurs twice, and the ids are the requested ones, with
those of the preflight if the Gradle tests are requested. -/
structure CompleteResults (checks : List CheckResult) (requested_ids : List Str) : Prop where
  schema_valid : ∀ check ∈ checks, check.SchemaValid
  ids_nodup : (checks.map (·.check_id)).Nodup
  ids_exact : ∀ check_id, check_id ∈ checks.map (·.check_id) ↔ check_id ∈ requested_ids ∨
    ("gradle.test" : Str) ∈ requested_ids ∧ check_id ∈ requiredPreflightCheckIds

/-- The ids are accepted if they are distinct and just the expected ones. -/
theorem checkIdsError_eq_none [Runtime] {check_ids requested : List Str} :
    checkIdsError check_ids requested = none ↔ check_ids.Nodup ∧
      ∀ check_id, check_id ∈ check_ids ↔ check_id ∈ requested ∨
        ("gradle.test" : Str) ∈ requested ∧ check_id ∈ requiredPreflightCheckIds := by
  have hduplicates : Str.sortedSet (check_ids.filter fun id => check_ids.count id > 1) = [] ↔
      check_ids.Nodup := by
    simp only [Str.sortedSet_eq_nil, List.filter_eq_nil_iff, decide_eq_true_eq, not_lt,
      List.nodup_iff_count_le_one]
    refine ⟨fun h id => ?_, fun h id _ => h id⟩
    by_cases hid : id ∈ check_ids
    · exact h id hid
    · exact (List.count_eq_zero.mpr hid).le.trans (Nat.zero_le 1)
  unfold checkIdsError
  generalize hlist : (if ("gradle.test" : Str) ∈ requested then requiredPreflightCheckIds else []) =
    preflight
  have hpreflight (id : Str) : id ∈ preflight ↔
      ("gradle.test" : Str) ∈ requested ∧ id ∈ requiredPreflightCheckIds := by
    rw [← hlist]
    split <;> simp [*]
  have hmissing : Str.sortedSet ((requested ++ preflight).filter (· ∉ check_ids)) = [] ↔
      ∀ id, id ∈ requested ∨ id ∈ preflight → id ∈ check_ids := by
    simp [List.filter_eq_nil_iff, or_imp, forall_and]
  have hextras : Str.sortedSet (check_ids.filter fun id => id ∉ requested ∧ id ∉ preflight) = [] ↔
      ∀ id, id ∈ check_ids → id ∈ requested ∨ id ∈ preflight := by
    simp [List.filter_eq_nil_iff, or_iff_not_imp_left]
  simp only [ne_eq, ite_not, ← hpreflight]
  constructor
  · intro h
    split_ifs at h with hnodup hall hknown
    exact ⟨hduplicates.mp hnodup, fun id => ⟨hextras.mp hknown id, hmissing.mp hall id⟩⟩
  · rintro ⟨hnodup, hiff⟩
    rw [if_pos (hduplicates.mpr hnodup), if_pos (hmissing.mpr fun id => (hiff id).mpr),
      if_pos (hextras.mpr fun id => (hiff id).mp)]

/-- A value that cannot be iterated gives an error and no results, or raises. -/
theorem validateCheckRunnerResults_error [Runtime] {failure : Failure} {requested_ids : List Str}
    {found : List CheckResult × Option CheckResult}
    (h : validateCheckRunnerResults (.error failure) requested_ids = .ok found) :
    ∃ reason, found = ([], some (runnerError reason)) := by
  cases failure with
  | HarnessViolation => exact nomatch h
  | raised e =>
    change (if _ then _ else _) = _ at h
    split_ifs at h
    exact ⟨_, (Except.ok.inj h).symm⟩

/-- What is returned for a list of candidates. -/
theorem validateCheckRunnerResults_ok [Runtime] (candidates : List Candidate)
    (requested_ids : List Str) :
    validateCheckRunnerResults (.ok candidates) requested_ids =
      .ok ((scanCandidates candidates).1,
        match (scanCandidates candidates).2 with
        | some schema_error => some (runnerError schema_error)
        | none => (checkIdsError ((scanCandidates candidates).1.map (·.check_id)) requested_ids).map
          runnerError) := by
  rcases hscan : scanCandidates candidates with ⟨found, _ | reason⟩ <;>
    simp only [validateCheckRunnerResults, hscan]

/-- The results that are accepted are the complete ones. -/
theorem validateCheckRunnerResults_eq_none [Runtime] {raw_checks : RawChecks}
    {requested_ids : List Str} {checks : List CheckResult} :
    validateCheckRunnerResults raw_checks requested_ids = .ok (checks, none) ↔
      raw_checks = .ok (checks.map (·.toCandidate)) ∧ CompleteResults checks requested_ids := by
  constructor
  · intro h
    rcases raw_checks with failure | candidates
    · obtain ⟨reason, hfound⟩ := validateCheckRunnerResults_error h
      exact nomatch (Prod.mk.inj hfound).2
    · obtain ⟨rest, hsplit, hvalid, -, hnone⟩ := scanCandidates_spec candidates
      rw [validateCheckRunnerResults_ok] at h
      obtain ⟨rfl, herror⟩ := Prod.mk.inj (Except.ok.inj h)
      cases hscan : (scanCandidates candidates).2 with
      | some reason =>
        rw [hscan] at herror
        exact nomatch herror
      | none =>
        rw [hscan] at herror
        obtain ⟨hnodup, hexact⟩ := checkIdsError_eq_none.mp (Option.map_eq_none_iff.mp herror)
        rw [hnone.mp hscan, List.append_nil] at hsplit
        exact ⟨congrArg _ hsplit, hvalid, hnodup, hexact⟩
  · rintro ⟨rfl, hcomplete⟩
    rw [validateCheckRunnerResults_ok, scanCandidates_of_valid hcomplete.schema_valid,
      checkIdsError_eq_none.mpr ⟨hcomplete.ids_nodup, hcomplete.ids_exact⟩]
    rfl

/-- An error is a failed check, after the results before the first invalid element. -/
theorem validateCheckRunnerResults_eq_some [Runtime] {raw_checks : RawChecks}
    {requested_ids : List Str} {checks : List CheckResult} {error : CheckResult}
    (h : validateCheckRunnerResults raw_checks requested_ids = .ok (checks, some error)) :
    error.state = .FAIL ∧
      ((checks = [] ∧ ∃ failure, raw_checks = .error failure) ∨
        ∃ rest, raw_checks = .ok (checks.map (·.toCandidate) ++ rest) ∧
          (∀ check ∈ checks, check.SchemaValid) ∧
            ∀ bad, rest.head? = some bad → ¬bad.Accepted) := by
  rcases raw_checks with failure | candidates
  · obtain ⟨reason, hfound⟩ := validateCheckRunnerResults_error h
    obtain ⟨rfl, herror⟩ := Prod.mk.inj hfound
    exact ⟨Option.some.inj herror ▸ rfl, .inl ⟨rfl, _, rfl⟩⟩
  · obtain ⟨rest, hsplit, hvalid, hbad, -⟩ := scanCandidates_spec candidates
    rw [validateCheckRunnerResults_ok] at h
    obtain ⟨rfl, herror⟩ := Prod.mk.inj (Except.ok.inj h)
    refine ⟨?_, .inr ⟨rest, congrArg _ hsplit, hvalid, hbad⟩⟩
    cases hscan : (scanCandidates candidates).2 with
    | some reason =>
      rw [hscan] at herror
      exact Option.some.inj herror ▸ rfl
    | none =>
      rw [hscan] at herror
      obtain ⟨reason, -, rfl⟩ := Option.map_eq_some_iff.mp herror
      rfl

/-- **Runner results are accepted exactly when complete.** There is no error if and only
if the value is iterable and its elements are complete results; an error is a failed
check, and the valid results before the first invalid element are returned unchanged. -/
theorem validateCheckRunnerResults_accepts [Runtime] (raw_checks : RawChecks)
    (requested_ids : List Str) :
    (∀ checks, validateCheckRunnerResults raw_checks requested_ids = .ok (checks, none) ↔
      raw_checks = .ok (checks.map (·.toCandidate)) ∧ CompleteResults checks requested_ids) ∧
    ∀ checks error, validateCheckRunnerResults raw_checks requested_ids = .ok (checks, some error) →
      error.state = .FAIL ∧
      ((checks = [] ∧ ∃ failure, raw_checks = .error failure) ∨
        ∃ rest, raw_checks = .ok (checks.map (·.toCandidate) ++ rest) ∧
          (∀ check ∈ checks, check.SchemaValid) ∧ ∀ bad, rest.head? = some bad → ¬bad.Accepted) :=
  ⟨fun _ => validateCheckRunnerResults_eq_none, fun _ _ => validateCheckRunnerResults_eq_some⟩

end CoffeeOrder.Harness
