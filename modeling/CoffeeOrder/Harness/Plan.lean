import CoffeeOrder.Harness.Patterns
import CoffeeOrder.Python.Bytes

/-!
# Plans

`parse_plan` and the JSON helpers that it shares with the other loaders.
-/

namespace CoffeeOrder.Harness

open Kit Python

/-- A JSON object. -/
abbrev JsonObject := List (Str × Json)

namespace JsonObject

/-- `set(payload)`. -/
def keys (payload : JsonObject) : List Str := payload.map Prod.fst

/-- `payload[key]`. -/
def item (payload : JsonObject) (key : Str) : Except Failure Json :=
  orRaise ((Json.obj payload).item key)

/-- `set(payload) == fields`. -/
def hasFields (payload : JsonObject) (fields : List Str) : Prop :=
  ∀ key, key ∈ payload.keys ↔ key ∈ fields

/-- `sorted(set(payload) - fields)`. -/
def unknown (payload : JsonObject) (fields : List Str) : List Str :=
  Str.sortedSet (payload.keys.filter (· ∉ fields))

/-- `sorted(fields - set(payload))`. -/
def missing (payload : JsonObject) (fields : List Str) : List Str :=
  Str.sortedSet (fields.filter (· ∉ payload.keys))

/-- The object has these keys and no others. -/
theorem hasFields_iff {payload : JsonObject} {fields : List Str} :
    payload.hasFields fields ↔
      (∀ key ∈ payload.keys, key ∈ fields) ∧ ∀ key ∈ fields, key ∈ payload.keys :=
  ⟨fun h => ⟨fun key => (h key).mp, fun key => (h key).mpr⟩,
    fun h key => ⟨h.1 key, h.2 key⟩⟩

instance (payload : JsonObject) (fields : List Str) : Decidable (payload.hasFields fields) :=
  decidable_of_iff _ hasFields_iff.symm

end JsonObject

/-- `_reject_duplicate_json_keys`. -/
def rejectDuplicateJsonKeys (pairs : List (Str × Json)) : Except Exc Json :=
  Json.obj <$> pairs.foldlM (fun result pair =>
    if pair.1 ∈ JsonObject.keys result then .error ⟨.DuplicateJsonKey, pair.1⟩
    else .ok (result ++ [pair])) []

/-- `Plan`. -/
structure Plan where
  issue : ℤ
  target_branch : Str
  objective : Str
  allowed_paths : List Str
  acceptance_criteria : List Str
  declared_risks : List Str
  contract_changes : List Str
  non_goals : List Str
  relative_path : Str
  plan_hash : Str
  deriving DecidableEq

/-- `PLAN_FIELDS`. -/
def planFields : List Str :=
  ["issue", "targetBranch", "objective", "allowedPaths", "acceptanceCriteria", "declaredRisks",
    "contractChanges", "nonGoals"]

/-- An element of a string array. -/
def stringElement (refusal : Str → Failure) : Json → Except Failure Str
  | .str value => do
    raiseIf (value = []) (refusal "에는 빈 값이 아닌 문자열만 허용됩니다.")
    raiseIf (value ≠ value.strip) (refusal " 값의 선행 또는 후행 공백은 허용되지 않습니다.")
    return value
  | _ => throw (refusal "에는 빈 값이 아닌 문자열만 허용됩니다.")

/-- What `string_array` and `policy_string_array` share. -/
def stringArrayOf (check_id : Str) (raw : Json) (field : Str) (require_non_empty : Bool) :
    Except Failure (List Str) := do
  let refusal (reason : Str) : Failure := .HarnessViolation .FAIL check_id (field ++ reason)
  let .arr items := raw | throw (refusal "는 문자열 배열이어야 합니다.")
  let values ← items.mapM (stringElement refusal)
  raiseIf (require_non_empty ∧ values = []) (refusal "는 비어 있을 수 없습니다.")
  raiseIf (¬values.Nodup) (refusal "에 중복 값이 있습니다.")
  return values

/-- `string_array`. -/
def stringArray (raw : Json) (field : Str) (require_non_empty : Bool) : Except Failure (List Str) :=
  stringArrayOf "plan.schema" raw field require_non_empty

/-- `_non_empty_string`. -/
def nonEmptyString (raw : Json) (field : Str) : Except Failure Str := do
  let refusal (reason : Str) : Failure := .HarnessViolation .FAIL "plan.schema" (field ++ reason)
  let .str value := raw | throw (refusal "는 빈 값이 아닌 문자열이어야 합니다.")
  raiseIf (value = []) (refusal "는 빈 값이 아닌 문자열이어야 합니다.")
  raiseIf (value ≠ value.strip) (refusal " 값의 선행 또는 후행 공백은 허용되지 않습니다.")
  return value

/-- The check of `issue`. -/
def positiveIssue (refusal : Failure) : Json → Except Failure ℤ
  | .int issue => do
    raiseIf (issue < 1) refusal
    return issue
  | _ => throw refusal

variable [ByteRuntime]

/-- `_parse_json_object`. -/
def parseJsonObject (raw : Bytes) (check_id label : Str) : Except Failure JsonObject :=
  match ByteRuntime.loadsPairs rejectDuplicateJsonKeys raw with
  | .ok (.obj payload) => .ok payload
  | .ok _ => .error (.HarnessViolation .FAIL check_id (label ++ " 최상위 값은 object여야 합니다."))
  | .error error =>
    if error.type = .DuplicateJsonKey then
      .error (.HarnessViolation .FAIL check_id
        (label ++ " JSON에 중복 key가 있습니다: " ++ error.text))
    else if error.type = .UnicodeDecodeError ∨ error.type = .JSONDecodeError then
      .error (.HarnessViolation .FAIL check_id
        (label ++ " JSON을 해석할 수 없습니다: " ++ error.text))
    else .error (.raised error)

/-- `parse_plan`. -/
def parsePlan (raw : Bytes) (relative_path : Str) (known_risks : List Str) :
    Except Failure Plan := do
  let payload ← parseJsonObject raw "plan.schema" "plan"
  raiseIf (payload.unknown planFields ≠ []) (.HarnessViolation .FAIL "plan.schema"
    ("미지원 필드가 있습니다: " ++ listRepr (payload.unknown planFields)))
  raiseIf (payload.missing planFields ≠ []) (.HarnessViolation .FAIL "plan.schema"
    ("필수 필드가 없습니다: " ++ listRepr (payload.missing planFields)))
  let issue ← positiveIssue
    (.HarnessViolation .FAIL "plan.schema" "issue는 1 이상의 정수여야 합니다.")
    (← payload.item "issue")
  let target_branch ← nonEmptyString (← payload.item "targetBranch") "targetBranch"
  raiseIf (target_branch ≠ "main") (.HarnessViolation .REPLAN_REQUIRED "plan.target"
    "targetBranch는 main이어야 합니다.")
  let path_matches ← orRaise (planPathMatchesIssue relative_path issue)
  raiseIf (!path_matches) (.HarnessViolation .FAIL "plan.path"
    ("plan 경로는 harness/plans/\x7bissue\x7d.json 또는 " ++
      "harness/plans/issue-\x7bissue\x7d-<slug>.json이어야 합니다."))
  let objective ← nonEmptyString (← payload.item "objective") "objective"
  let allowed_paths ← stringArray (← payload.item "allowedPaths") "allowedPaths" true
  allowed_paths.forM validatePlanPattern
  let acceptance_criteria ←
    stringArray (← payload.item "acceptanceCriteria") "acceptanceCriteria" true
  let declared_risks ← stringArray (← payload.item "declaredRisks") "declaredRisks" false
  let unknown_risks := Str.sortedSet (declared_risks.filter (· ∉ known_risks))
  raiseIf (unknown_risks ≠ []) (.HarnessViolation .FAIL "plan.schema"
    ("declaredRisks에 알 수 없는 값이 있습니다: " ++ listRepr unknown_risks))
  let contract_changes ← stringArray (← payload.item "contractChanges") "contractChanges" false
  let _ ← contract_changes.mapM contractChangePath
  let non_goals ← stringArray (← payload.item "nonGoals") "nonGoals" true
  return {
    issue, target_branch, objective, allowed_paths, acceptance_criteria, declared_risks
    contract_changes, non_goals, relative_path, plan_hash := ByteRuntime.sha256 raw }

/-- What a parsed plan satisfies. -/
structure Plan.WellFormed (plan : Plan) (known_risks : List Str) : Prop where
  issue_pos : 1 ≤ plan.issue
  target_main : plan.target_branch = "main"
  path_issue : planPathMatchesIssue plan.relative_path plan.issue = .ok true
  patterns : ∀ pattern ∈ plan.allowed_paths, IsPattern pattern
  not_forbidden : ∀ pattern ∈ plan.allowed_paths, pattern ∉ forbiddenPlanPatterns
  risks_known : ∀ risk ∈ plan.declared_risks, risk ∈ known_risks
  declarations : ∃ paths, plan.contract_changes.mapM contractChangePath = .ok paths

omit [ByteRuntime] in
/-- A string of an array is not empty and has no white space around it. -/
theorem stringElement_eq_ok {refusal : Str → Failure} {raw : Json} {value : Str}
    (h : stringElement refusal raw = .ok value) : value ≠ [] ∧ value.strip = value := by
  cases raw with
  | str s =>
    obtain ⟨hempty, h⟩ := Checked.raiseIf_bind_eq_ok.mp h
    obtain ⟨hstrip, h⟩ := Checked.raiseIf_bind_eq_ok.mp h
    obtain rfl := Checked.pure_eq_ok.mp h
    exact ⟨hempty, (not_not.mp hstrip).symm⟩
  | _ => exact nomatch h

omit [ByteRuntime] in
/-- An accepted array holds different nonempty strings without space around them. -/
theorem stringArrayOf_eq_ok {check_id : Str} {raw : Json} {field : Str} {require_non_empty : Bool}
    {values : List Str} (h : stringArrayOf check_id raw field require_non_empty = .ok values) :
    values.Nodup ∧ ∀ value ∈ values, value ≠ [] ∧ value.strip = value := by
  unfold stringArrayOf at h
  cases raw with
  | arr items =>
    obtain ⟨accepted, helements, h⟩ := Checked.bind_eq_ok.mp h
    obtain ⟨-, h⟩ := Checked.raiseIf_bind_eq_ok.mp h
    obtain ⟨hnodup, h⟩ := Checked.raiseIf_bind_eq_ok.mp h
    obtain rfl := Checked.pure_eq_ok.mp h
    refine ⟨not_not.mp hnodup, fun value hvalue => ?_⟩
    obtain ⟨i, hi, rfl⟩ := List.mem_iff_getElem.mp hvalue
    have hforall := Checked.mapM_eq_ok.mp helements
    exact stringElement_eq_ok (hforall.get (hforall.length_eq ▸ hi) hi)
  | _ => exact nomatch h

omit [ByteRuntime] in
/-- An issue is positive. -/
theorem positiveIssue_eq_ok {refusal : Failure} {raw : Json} {issue : ℤ}
    (h : positiveIssue refusal raw = .ok issue) : 1 ≤ issue := by
  cases raw with
  | int n =>
    obtain ⟨hpos, hpure⟩ := Checked.raiseIf_bind_eq_ok.mp h
    obtain rfl := Checked.pure_eq_ok.mp hpure
    omega
  | _ => exact nomatch h

omit [ByteRuntime] in
/-- A pattern of a plan is one of the repository and none of the forbidden ones. -/
theorem validatePlanPattern_eq_ok {pattern : Str} (h : validatePlanPattern pattern = .ok ()) :
    IsPattern pattern ∧ pattern ∉ forbiddenPlanPatterns := by
  obtain ⟨hforbidden, hvalid⟩ := Checked.raiseIf_bind_eq_ok.mp h
  exact ⟨⟨_, hvalid⟩, hforbidden⟩

omit [ByteRuntime] in
/-- An empty list of the elements outside `known` says that all are in it. -/
theorem not_sortedSet_filter_ne_nil {xs known : List Str} :
    ¬Str.sortedSet (xs.filter (· ∉ known)) ≠ [] ↔ ∀ x ∈ xs, x ∈ known := by
  simp [List.filter_eq_nil_iff]

/-- Every plan that is accepted is well formed. -/
theorem parsePlan_wellFormed {raw : Bytes} {relative_path : Str} {known_risks : List Str}
    {plan : Plan} (h : parsePlan raw relative_path known_risks = .ok plan) :
    plan.WellFormed known_risks ∧ plan.relative_path = relative_path ∧
      plan.plan_hash = ByteRuntime.sha256 raw := by
  simp only [parsePlan, Checked.bind_eq_ok, Checked.raiseIf_eq_ok, Checked.pure_eq_ok,
    exists_and_left, exists_const, orRaise_eq_ok, Checked.forM_eq_ok,
    not_sortedSet_filter_ne_nil] at h
  obtain ⟨payload, -, -, -, rawIssue, -, issue, hissue, -, -, target, -, htarget, path_matches,
    hpath, hmatches, -, -, objective, -, -, -, allowed, -, hallowed, -, -, criteria, -, -, -, risks,
    -, hrisks, -, -, changes, -, paths, hpaths, -, -, goals, -, rfl⟩ := h
  obtain rfl : path_matches = true := by simpa using hmatches
  exact ⟨⟨positiveIssue_eq_ok hissue, not_not.mp htarget, hpath,
    fun pattern hp => (validatePlanPattern_eq_ok (hallowed pattern hp)).1,
    fun pattern hp => (validatePlanPattern_eq_ok (hallowed pattern hp)).2, hrisks, paths, hpaths⟩,
    rfl, rfl⟩

section Refusals

variable {P : Failure → Prop}

omit [ByteRuntime] in
/-- A key that is there is found. -/
theorem item_eq_ok {payload : JsonObject} {key : Str} (h : key ∈ payload.keys) :
    ∃ value, payload.item key = .ok value := by
  cases hlookup : payload.lookup key with
  | none =>
    obtain ⟨entry, hentry, rfl⟩ := List.mem_map.mp h
    simpa using List.lookup_eq_none_iff.mp hlookup entry hentry
  | some value => exact ⟨value, by rw [JsonObject.item, Json.item, hlookup]; rfl⟩

omit [ByteRuntime] in
/-- A key that is there raises nothing. -/
theorem item_raises {payload : JsonObject} {key : Str} (h : key ∈ payload.keys) :
    ErrorsIn P (payload.item key) := by
  obtain ⟨value, hvalue⟩ := item_eq_ok h
  exact hvalue ▸ .ok

omit [ByteRuntime] in
/-- A malformed string raises the given violation. -/
theorem stringElement_raises {refusal : Str → Failure} (h : ∀ reason, P (refusal reason))
    (raw : Json) : ErrorsIn P (stringElement refusal raw) := by
  cases raw with
  | str value =>
    exact (ErrorsIn.raiseIf (h _)).bind fun _ _ => (ErrorsIn.raiseIf (h _)).bind fun _ _ => .pure
  | _ => exact ErrorsIn.error.mpr (h _)

omit [ByteRuntime] in
/-- A malformed array raises a violation of its check. -/
theorem stringArrayOf_raises {check_id : Str}
    (h : ∀ reason, P (.HarnessViolation .FAIL check_id reason)) (raw : Json) (field : Str)
    (require_non_empty : Bool) :
    ErrorsIn P (stringArrayOf check_id raw field require_non_empty) := by
  unfold stringArrayOf
  cases raw with
  | arr items =>
    refine (ErrorsIn.mapM fun _ => stringElement_raises (fun _ => h _) _).bind fun _ _ => ?_
    exact (ErrorsIn.raiseIf (h _)).bind fun _ _ => (ErrorsIn.raiseIf (h _)).bind fun _ _ => .pure
  | _ => exact ErrorsIn.error.mpr (h _)

omit [ByteRuntime] in
/-- A malformed field raises a violation of the schema. -/
theorem nonEmptyString_raises (h : ∀ reason, P (.HarnessViolation .FAIL "plan.schema" reason))
    (raw : Json) (field : Str) : ErrorsIn P (nonEmptyString raw field) := by
  unfold nonEmptyString
  cases raw with
  | str value =>
    exact (ErrorsIn.raiseIf (h _)).bind fun _ _ => (ErrorsIn.raiseIf (h _)).bind fun _ _ => .pure
  | _ => exact ErrorsIn.error.mpr (h _)

omit [ByteRuntime] in
/-- A malformed issue raises the given violation. -/
theorem positiveIssue_raises {refusal : Failure} (h : P refusal) (raw : Json) :
    ErrorsIn P (positiveIssue refusal raw) := by
  cases raw with
  | int n => exact (ErrorsIn.raiseIf h).bind fun _ _ => .pure
  | _ => exact ErrorsIn.error.mpr h

/-- What `json.loads` raises besides is not caught. -/
theorem parseJsonObject_raises {raw : Bytes} {check_id : Str}
    (h : ∀ reason, P (.HarnessViolation .FAIL check_id reason))
    (hloads : ∀ error, ByteRuntime.loadsPairs rejectDuplicateJsonKeys raw = .error error →
      error.type ≠ .DuplicateJsonKey → error.type ≠ .UnicodeDecodeError →
      error.type ≠ .JSONDecodeError → P (.raised error)) (label : Str) :
    ErrorsIn P (parseJsonObject raw check_id label) := by
  unfold parseJsonObject
  cases hraw : ByteRuntime.loadsPairs rejectDuplicateJsonKeys raw with
  | ok payload =>
    cases payload with
    | obj entries => exact .ok
    | _ => exact ErrorsIn.error.mpr (h _)
  | error error =>
    dsimp only
    split
    · exact ErrorsIn.error.mpr (h _)
    · next hduplicate =>
      split
      · exact ErrorsIn.error.mpr (h _)
      · next hdecode =>
        rw [not_or] at hdecode
        exact ErrorsIn.error.mpr (hloads error hraw hduplicate hdecode.1 hdecode.2)

/-- An object that cannot be read does not claim to pass. -/
theorem parseJsonObject_rejects (raw : Bytes) (check_id label : Str) :
    ErrorsIn Failure.Rejects (parseJsonObject raw check_id label) :=
  parseJsonObject_raises (fun _ => refused_rejects (by decide)) (fun _ _ _ _ _ => trivial) label

/-- The fields that `parse_plan` has read when it looks at the path of the plan. -/
structure ReadsPath (payload : JsonObject) (issue : ℤ) : Prop where
  fields : payload.hasFields planFields
  issue_item : payload.item "issue" = .ok (.int issue)
  issue_pos : 1 ≤ issue
  target : payload.item "targetBranch" = .ok (.str "main")

omit [ByteRuntime] in
/-- The accepted issues are the positive integers. -/
theorem positiveIssue_eq_ok_iff {refusal : Failure} {raw : Json} {issue : ℤ} :
    positiveIssue refusal raw = .ok issue ↔ raw = .int issue ∧ 1 ≤ issue := by
  refine ⟨fun h => ⟨?_, positiveIssue_eq_ok h⟩, ?_⟩
  · cases raw with
    | int n => rw [Checked.pure_eq_ok.mp (Checked.raiseIf_bind_eq_ok.mp h).2]
    | _ => exact nomatch h
  · rintro ⟨rfl, hpos⟩
    exact Checked.raiseIf_bind_eq_ok.mpr ⟨by omega, rfl⟩

omit [ByteRuntime] in
/-- The accepted strings are neither empty nor surrounded by white space. -/
theorem nonEmptyString_eq_ok_iff {raw : Json} {field value : Str} :
    nonEmptyString raw field = .ok value ↔ raw = .str value ∧ value ≠ [] ∧ value = value.strip := by
  unfold nonEmptyString
  cases raw with
  | str s =>
    refine Checked.raiseIf_bind_eq_ok.trans ?_
    rw [Checked.raiseIf_bind_eq_ok, Checked.pure_eq_ok, not_not, Json.str.injEq]
    constructor
    · rintro ⟨hne, hstrip, rfl⟩
      exact ⟨rfl, hne, hstrip⟩
    · rintro ⟨rfl, hne, hstrip⟩
      exact ⟨hne, hstrip, rfl⟩
  | _ => exact iff_of_false nofun nofun

omit [ByteRuntime] in
/-- No unknown and no missing fields. -/
theorem hasFields_of_sortedSet {payload : JsonObject} {fields : List Str}
    (hunknown : ¬payload.unknown fields ≠ []) (hmissing : ¬payload.missing fields ≠ []) :
    payload.hasFields fields :=
  JsonObject.hasFields_iff.mpr ⟨not_sortedSet_filter_ne_nil.mp hunknown,
    not_sortedSet_filter_ne_nil.mp hmissing⟩

/-- What `parse_plan` can raise: its violations, and what `json.loads` and `int` raise. -/
theorem parsePlan_raises (h : Refused P) {raw : Bytes} {relative_path : Str}
    (hloads : ErrorsIn P (parseJsonObject raw "plan.schema" "plan"))
    (hpath : ∀ payload issue, parseJsonObject raw "plan.schema" "plan" = .ok payload →
      ReadsPath payload issue → ErrorsIn P (orRaise (planPathMatchesIssue relative_path issue)))
    (known_risks : List Str) : ErrorsIn P (parsePlan raw relative_path known_risks) := by
  have check {bad : Prop} [Decidable bad] {state : State} {check_id reason : Str}
      (hstate : state ≠ .PASS) :
      ErrorsIn P (raiseIf bad (.HarnessViolation state check_id reason)) :=
    ErrorsIn.raiseIf (h hstate)
  have array (raw : Json) (field : Str) (require : Bool) :
      ErrorsIn P (stringArray raw field require) :=
        stringArrayOf_raises (fun _ => h (by decide)) _ _ _
  refine hloads.bind fun payload hpayload => ?_
  refine (check (by decide)).bind fun _ hunknown => (check (by decide)).bind fun _ hmissing => ?_
  have hfields := hasFields_of_sortedSet (Checked.raiseIf_eq_ok.mp hunknown)
    (Checked.raiseIf_eq_ok.mp hmissing)
  have item {key : Str} (hkey : key ∈ planFields) : ErrorsIn P (payload.item key) :=
    item_raises ((hfields key).mpr hkey)
  refine (item (by decide)).bind fun rawIssue hrawIssue => ?_
  refine (positiveIssue_raises (h (by decide)) _).bind fun issue hissue => ?_
  obtain ⟨rfl, hpos⟩ := positiveIssue_eq_ok_iff.mp hissue
  refine (item (by decide)).bind fun rawTarget hrawTarget => ?_
  refine (nonEmptyString_raises (fun _ => h (by decide)) _ _).bind fun target htarget => ?_
  obtain ⟨rfl, -⟩ := nonEmptyString_eq_ok_iff.mp htarget
  refine (check (by decide)).bind fun _ hmain => ?_
  obtain rfl := not_not.mp (Checked.raiseIf_eq_ok.mp hmain)
  refine (hpath payload issue hpayload ⟨hfields, hrawIssue, hpos, hrawTarget⟩).bind fun _ _ => ?_
  refine (check (by decide)).bind fun _ _ => (item (by decide)).bind fun _ _ => ?_
  refine (nonEmptyString_raises (fun _ => h (by decide)) _ _).bind fun _ _ => ?_
  refine (item (by decide)).bind fun _ _ => (array _ _ _).bind fun _ _ => ?_
  refine (ErrorsIn.forM (validatePlanPattern_raises h)).bind fun _ _ => ?_
  refine (item (by decide)).bind fun _ _ => (array _ _ _).bind fun _ _ => ?_
  refine (item (by decide)).bind fun _ _ => (array _ _ _).bind fun _ _ => ?_
  refine (check (by decide)).bind fun _ _ => (item (by decide)).bind fun _ _ => ?_
  refine (array _ _ _).bind fun _ _ => ?_
  refine (ErrorsIn.mapM (contractChangePath_raises h)).bind fun _ _ => ?_
  exact (item (by decide)).bind fun _ _ => (array _ _ _).bind fun _ _ => .pure

/-- A refused plan does not claim to pass. -/
theorem parsePlan_rejects (raw : Bytes) (relative_path : Str) (known_risks : List Str) :
    ErrorsIn Failure.Rejects (parsePlan raw relative_path known_risks) :=
  parsePlan_raises refused_rejects (parseJsonObject_rejects _ _ _)
    (fun _ _ _ _ => orRaise_rejects _) known_risks

end Refusals

end CoffeeOrder.Harness
