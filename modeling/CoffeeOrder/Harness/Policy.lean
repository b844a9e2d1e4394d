import CoffeeOrder.Harness.Plan

/-!
# The risk policy

`load_risk_policy` after the file is read.
-/

namespace CoffeeOrder.Harness

open Kit Python

/-- `RiskRule`. -/
structure RiskRule where
  rule_id : Str
  patterns : List Str
  risks : List Str
  deriving DecidableEq

/-- `RiskPolicy`. -/
structure RiskPolicy where
  schema_version : ℤ
  known_risks : List Str
  rules : List RiskRule
  protected_patterns : List Str
  risk_checks : List (Str × List Str)
  deriving DecidableEq

/-- `POLICY_FIELDS`. -/
def policyFields : List Str :=
  ["schemaVersion", "knownRisks", "rules", "protectedPatterns", "riskChecks"]

/-- `RULE_FIELDS`. -/
def ruleFields : List Str := ["id", "patterns", "risks"]

/-- `policy_error`. -/
def policyError (reason : Str) : Failure := .HarnessViolation .FAIL "policy.schema" reason

/-- `policy_string_array`. -/
def policyStringArray (raw : Json) (field : Str) (allow_empty : Bool := false) :
    Except Failure (List Str) :=
  stringArrayOf "policy.schema" raw field (!allow_empty)

/-- `validate_policy_pattern`. -/
def validatePolicyPattern (pattern : Str) : Except Failure Unit :=
  (validateRepositoryPattern pattern "policy.schema").mapError
    (.restate fun _ _ reason => policyError reason)

/-- The check of `schemaVersion`. -/
def schemaVersionOne (refusal : Failure) : Json → Except Failure ℤ
  | .int version => do
    raiseIf (version ≠ 1) refusal
    return version
  | _ => throw refusal

/-- The accepted version is one. -/
theorem schemaVersionOne_eq_ok_iff {refusal : Failure} {raw : Json} {version : ℤ} :
    schemaVersionOne refusal raw = .ok version ↔ raw = .int version ∧ version = 1 := by
  cases raw with
  | int n =>
    refine Checked.raiseIf_bind_eq_ok.trans ?_
    rw [not_not, Checked.pure_eq_ok, Json.int.injEq]
    exact ⟨fun ⟨hone, hn⟩ => ⟨hn, hn ▸ hone⟩, fun ⟨hn, hone⟩ => ⟨hn ▸ hone, hn⟩⟩
  | _ => exact iff_of_false nofun nofun

/-- The rules read so far, with their ids and patterns. -/
structure RuleScan where
  rules : List RiskRule := []
  rule_ids : List Str := []
  all_patterns : List Str := []

/-- One pass of the loop over the patterns of a rule. -/
def addPattern (all_patterns : List Str) (pattern : Str) : Except Failure (List Str) := do
  validatePolicyPattern pattern
  raiseIf (pattern ∈ all_patterns) (policyError ("중복 pattern이 있습니다: " ++ pattern))
  return all_patterns ++ [pattern]

/-- The id of a rule that is not among those read so far. -/
def parseRuleId (name : Str) (rule_ids : List Str) (raw : Json) : Except Failure Str := do
  let .str rule_id := raw | throw (policyError (name ++ ".id는 빈 값이 아닌 문자열이어야 합니다."))
  raiseIf (rule_id = []) (policyError (name ++ ".id는 빈 값이 아닌 문자열이어야 합니다."))
  raiseIf (rule_id ≠ rule_id.strip)
    (policyError (name ++ ".id의 선행 또는 후행 공백은 허용되지 않습니다."))
  raiseIf (rule_id ∈ rule_ids) (policyError ("중복 rule id가 있습니다: " ++ rule_id))
  return rule_id

/-- The check ids read so far, by risk. -/
structure CheckScan where
  risk_checks : List (Str × List Str) := []
  all_check_ids : List Str := []

variable [ByteRuntime]

/-- One pass of the loop over `rules`. -/
def parseRule (known_risks : List Str) (scan : RuleScan) (entry : Json × ℕ) :
    Except Failure RuleScan := do
  let name : Str := "rules[" ++ Str.ofInt entry.2 ++ "]"
  let .obj raw_rule := entry.1
    | throw (policyError (name ++ " 필드는 id, patterns, risks여야 합니다."))
  raiseIf (¬JsonObject.hasFields raw_rule ruleFields)
    (policyError (name ++ " 필드는 id, patterns, risks여야 합니다."))
  let rule_id ← parseRuleId name scan.rule_ids (← JsonObject.item raw_rule "id")
  let patterns ← policyStringArray (← JsonObject.item raw_rule "patterns") (name ++ ".patterns")
  let all_patterns ← patterns.foldlM addPattern scan.all_patterns
  let risks ← policyStringArray (← JsonObject.item raw_rule "risks") (name ++ ".risks") true
  let unknown_risks := Str.sortedSet (risks.filter (· ∉ known_risks))
  raiseIf (unknown_risks ≠ [])
    (policyError (name ++ ".risks에 알 수 없는 값이 있습니다: " ++ listRepr unknown_risks))
  return {
    rules := scan.rules ++ [⟨rule_id, patterns, risks⟩]
    rule_ids := scan.rule_ids ++ [rule_id]
    all_patterns }

/-- One pass of the loop over the known risks. -/
def parseRiskChecks (raw_risk_checks : JsonObject) (scan : CheckScan) (risk : Str) :
    Except Failure CheckScan := do
  let checks ← policyStringArray (← raw_risk_checks.item risk) ("riskChecks." ++ risk)
  let duplicates := Str.sortedSet (checks.filter (· ∈ scan.all_check_ids))
  raiseIf (duplicates ≠ [])
    (policyError ("riskChecks에 중복 check id가 있습니다: " ++ listRepr duplicates))
  return {
    risk_checks := scan.risk_checks ++ [(risk, checks)]
    all_check_ids := scan.all_check_ids ++ checks }

/-- `load_risk_policy`, from the bytes of the file. -/
def parseRiskPolicy (raw : Bytes) : Except Failure RiskPolicy := do
  let payload ← (parseJsonObject raw "policy.schema" "risk policy").mapError
    (.restate fun _ _ reason => policyError reason)
  raiseIf (¬payload.hasFields policyFields)
    (policyError ("최상위 필드가 정확하지 않습니다: unknown=" ++
      listRepr (payload.unknown policyFields) ++ ", missing=" ++
      listRepr (payload.missing policyFields)))
  let schema_version ← schemaVersionOne (policyError "schemaVersion은 정수 1이어야 합니다.")
    (← payload.item "schemaVersion")
  let known_risks ← policyStringArray (← payload.item "knownRisks") "knownRisks"
  let .arr raw_rules ← payload.item "rules"
    | throw (policyError "rules는 비어 있지 않은 배열이어야 합니다.")
  raiseIf raw_rules.isEmpty (policyError "rules는 비어 있지 않은 배열이어야 합니다.")
  let scan ← raw_rules.zipIdx.foldlM (parseRule known_risks) {}
  let protected_patterns ←
    policyStringArray (← payload.item "protectedPatterns") "protectedPatterns"
  protected_patterns.forM validatePolicyPattern
  let .obj raw_risk_checks ← payload.item "riskChecks"
    | throw (policyError "riskChecks key는 knownRisks와 정확히 일치해야 합니다.")
  raiseIf (¬JsonObject.hasFields raw_risk_checks known_risks)
    (policyError "riskChecks key는 knownRisks와 정확히 일치해야 합니다.")
  let checks ← known_risks.foldlM (parseRiskChecks raw_risk_checks) {}
  return {
    schema_version, known_risks, rules := scan.rules, protected_patterns
    risk_checks := checks.risk_checks }

/-- What a loaded policy satisfies. -/
structure RiskPolicy.WellFormed (policy : RiskPolicy) : Prop where
  rule_patterns : ∀ rule ∈ policy.rules, ∀ pattern ∈ rule.patterns, IsPattern pattern
  protected_patterns : ∀ pattern ∈ policy.protected_patterns, IsPattern pattern
  risks_known : ∀ rule ∈ policy.rules, ∀ risk ∈ rule.risks, risk ∈ policy.known_risks
  checks_known : ∀ risk ∈ policy.known_risks, risk ∈ policy.risk_checks.map Prod.fst
  checks_nodup : (policy.risk_checks.map Prod.fst).Nodup
  check_ids : ∀ entry ∈ policy.risk_checks, ∀ check_id ∈ entry.2,
    check_id ≠ [] ∧ check_id.strip = check_id

omit [ByteRuntime] in
/-- A pattern of the policy is one of the repository. -/
theorem validatePolicyPattern_eq_ok {pattern : Str} (h : validatePolicyPattern pattern = .ok ()) :
    IsPattern pattern := ⟨_, Checked.mapError_eq_ok.mp h⟩

omit [ByteRuntime] in
/-- The loop over the patterns of a rule lets only patterns pass. -/
theorem foldlM_addPattern {patterns all_patterns found : List Str}
    (h : patterns.foldlM addPattern all_patterns = .ok found) :
    ∀ pattern ∈ patterns, IsPattern pattern := by
  induction patterns generalizing all_patterns with
  | nil => simp
  | cons pattern patterns ih =>
    rw [List.foldlM_cons, Checked.bind_eq_ok] at h
    obtain ⟨next, hadd, hrest⟩ := h
    obtain ⟨_, hvalid, -⟩ := Checked.bind_eq_ok.mp hadd
    exact List.forall_mem_cons.mpr ⟨validatePolicyPattern_eq_ok hvalid, ih hrest⟩

/-- What a rule adds to a scan. -/
theorem parseRule_eq_ok {known_risks : List Str} {scan scan' : RuleScan} {entry : Json × ℕ}
    (h : parseRule known_risks scan entry = .ok scan') :
    ∃ rule, scan'.rules = scan.rules ++ [rule] ∧ (∀ pattern ∈ rule.patterns, IsPattern pattern) ∧
      ∀ risk ∈ rule.risks, risk ∈ known_risks := by
  unfold parseRule at h
  obtain ⟨raw, index⟩ := entry
  cases raw with
  | obj raw_rule =>
    simp only [Checked.bind_eq_ok, Checked.raiseIf_eq_ok, Checked.pure_eq_ok, exists_and_left,
      exists_const, not_sortedSet_filter_ne_nil] at h
    obtain ⟨-, raw_id, -, rule_id, -, raw_patterns, -, patterns, -, found, hfound, raw_risks, -,
      risks, -, hrisks, rfl⟩ := h
    exact ⟨⟨rule_id, patterns, risks⟩, rfl, foldlM_addPattern hfound, hrisks⟩
  | _ => cases h

/-- What a risk adds to a scan. -/
theorem parseRiskChecks_eq_ok {raw_risk_checks : JsonObject} {scan scan' : CheckScan} {risk : Str}
    (h : parseRiskChecks raw_risk_checks scan risk = .ok scan') :
    ∃ checks : List Str, scan'.risk_checks = scan.risk_checks ++ [(risk, checks)] ∧
      ∀ check_id ∈ checks, check_id ≠ [] ∧ check_id.strip = check_id := by
  simp only [parseRiskChecks, Checked.bind_eq_ok, Checked.raiseIf_eq_ok, Checked.pure_eq_ok,
    exists_and_left, exists_const] at h
  obtain ⟨raw, -, checks, hchecks, -, rfl⟩ := h
  exact ⟨checks, rfl, (stringArrayOf_eq_ok hchecks).2⟩

/-- Every policy that is accepted is well formed. -/
theorem parseRiskPolicy_wellFormed {raw : Bytes} {policy : RiskPolicy}
    (h : parseRiskPolicy raw = .ok policy) : policy.WellFormed := by
  unfold parseRiskPolicy at h
  simp only [Checked.bind_eq_ok, Checked.raiseIf_eq_ok, Checked.mapError_eq_ok, exists_and_left,
    exists_const] at h
  obtain ⟨payload, -, -, raw_version, -, version, -, raw_known, -, known_risks, hknown,
    raw_rules, -, h⟩ := h
  cases raw_rules with
  | arr raw_rules =>
    simp only [Checked.bind_eq_ok, Checked.raiseIf_eq_ok, Checked.forM_eq_ok, exists_and_left,
      exists_const] at h
    obtain ⟨-, scan, hscan, raw_protected, -, protected_patterns, -, hprotected, raw_checks, -,
      h⟩ := h
    cases raw_checks with
    | obj raw_risk_checks =>
      simp only [Checked.bind_eq_ok, Checked.raiseIf_eq_ok, Checked.pure_eq_ok, exists_and_left,
        exists_const] at h
      obtain ⟨-, checks, hchecks, rfl⟩ := h
      have hrules : ∀ rule ∈ scan.rules, (∀ pattern ∈ rule.patterns, IsPattern pattern) ∧
          ∀ risk ∈ rule.risks, risk ∈ known_risks := by
        refine Checked.foldlM_invariant
          (P := fun scan => ∀ rule ∈ scan.rules, (∀ pattern ∈ rule.patterns, IsPattern pattern) ∧
            ∀ risk ∈ rule.risks, risk ∈ known_risks) ?_ hscan (by simp)
        intro scan entry scan' _ hparse hold rule hrule
        obtain ⟨new, hnew, hvalid⟩ := parseRule_eq_ok hparse
        rcases List.mem_append.mp (hnew ▸ hrule) with hmem | hmem
        · exact hold rule hmem
        · exact List.mem_singleton.mp hmem ▸ hvalid
      have hids : ∀ entry ∈ checks.risk_checks, ∀ check_id ∈ entry.2,
          check_id ≠ [] ∧ check_id.strip = check_id := by
        refine Checked.foldlM_invariant
          (P := fun scan : CheckScan => ∀ entry ∈ scan.risk_checks, ∀ check_id ∈ entry.2,
            check_id ≠ [] ∧ check_id.strip = check_id) ?_ hchecks (by simp)
        intro scan risk scan' _ hparse hold entry hentry
        obtain ⟨ids, hnew, hvalid⟩ := parseRiskChecks_eq_ok hparse
        rcases List.mem_append.mp (hnew ▸ hentry) with hmem | hmem
        · exact hold entry hmem
        · exact List.mem_singleton.mp hmem ▸ hvalid
      have hkeys : checks.risk_checks.map Prod.fst = known_risks := by
        refine (Checked.foldlM_records (g := id) (r := fun scan : CheckScan =>
          scan.risk_checks.map Prod.fst) ?_ hchecks).trans (by simp)
        intro scan risk scan' hparse
        obtain ⟨ids, hnew, -⟩ := parseRiskChecks_eq_ok hparse
        simp [hnew]
      exact ⟨fun rule hrule => (hrules rule hrule).1,
        fun pattern hp => validatePolicyPattern_eq_ok (hprotected pattern hp),
        fun rule hrule => (hrules rule hrule).2, fun risk hrisk => hkeys.symm ▸ hrisk,
        hkeys.symm ▸ (stringArrayOf_eq_ok hknown).1, hids⟩
    | _ => cases h
  | _ => cases h

section Refusals

omit [ByteRuntime] in
/-- A violation of the policy does not claim to pass. -/
theorem policyError_rejects {reason : Str} : (policyError reason).Rejects := Failure.rejects_of_ne

variable {P : Failure → Prop}

omit [ByteRuntime] in
/-- Another version raises the given violation. -/
theorem schemaVersionOne_raises {refusal : Failure} (h : P refusal) (raw : Json) :
    ErrorsIn P (schemaVersionOne refusal raw) := by
  cases raw with
  | int version => exact (ErrorsIn.raiseIf h).bind fun _ _ => .pure
  | _ => exact ErrorsIn.error.mpr h

variable (h : ∀ reason, P (policyError reason))

include h

omit [ByteRuntime] in
/-- A malformed array is refused. -/
theorem policyStringArray_raises (raw : Json) (field : Str) (allow_empty : Bool) :
    ErrorsIn P (policyStringArray raw field allow_empty) := stringArrayOf_raises h _ _ _

omit [ByteRuntime] in
/-- A malformed pattern is refused. -/
theorem validatePolicyPattern_raises (pattern : Str) : ErrorsIn P (validatePolicyPattern pattern) :=
  (validateRepositoryPattern_raises (fun _ => trivial) _).mapError
    (Failure.restate_violation fun _ _ _ => h _)

omit [ByteRuntime] in
/-- A repeated pattern is refused. -/
theorem addPattern_raises (all_patterns : List Str) (pattern : Str) :
    ErrorsIn P (addPattern all_patterns pattern) :=
  (validatePolicyPattern_raises h _).bind fun _ _ => (ErrorsIn.raiseIf (h _)).bind fun _ _ => .pure

omit [ByteRuntime] in
/-- A malformed id of a rule is refused. -/
theorem parseRuleId_raises (name : Str) (rule_ids : List Str) (raw : Json) :
    ErrorsIn P (parseRuleId name rule_ids raw) := by
  unfold parseRuleId
  cases raw with
  | str rule_id =>
    refine (ErrorsIn.raiseIf (h _)).bind fun _ _ => (ErrorsIn.raiseIf (h _)).bind fun _ _ => ?_
    exact (ErrorsIn.raiseIf (h _)).bind fun _ _ => .pure
  | _ => exact ErrorsIn.error.mpr (h _)

/-- A malformed rule is refused. -/
theorem parseRule_raises (known_risks : List Str) (scan : RuleScan) (entry : Json × ℕ) :
    ErrorsIn P (parseRule known_risks scan entry) := by
  unfold parseRule
  obtain ⟨raw, index⟩ := entry
  cases raw with
  | obj raw_rule =>
    refine (ErrorsIn.raiseIf (h _)).bind fun _ hfields => ?_
    have hkeys := not_not.mp (Checked.raiseIf_eq_ok.mp hfields)
    have item {key : Str} (hkey : key ∈ ruleFields) : ErrorsIn P (JsonObject.item raw_rule key) :=
      item_raises ((hkeys key).mpr hkey)
    refine (item (by decide)).bind fun _ _ => (parseRuleId_raises h _ _ _).bind fun _ _ => ?_
    refine (item (by decide)).bind fun _ _ => (policyStringArray_raises h _ _ _).bind fun _ _ => ?_
    refine (ErrorsIn.foldlM fun _ _ _ => addPattern_raises h _ _).bind fun _ _ => ?_
    refine (item (by decide)).bind fun _ _ => (policyStringArray_raises h _ _ _).bind fun _ _ => ?_
    exact (ErrorsIn.raiseIf (h _)).bind fun _ _ => .pure
  | _ => exact ErrorsIn.error.mpr (h _)

/-- Malformed checks of a risk are refused. -/
theorem parseRiskChecks_raises {raw_risk_checks : JsonObject} {risk : Str}
    (hrisk : risk ∈ raw_risk_checks.keys) (scan : CheckScan) :
    ErrorsIn P (parseRiskChecks raw_risk_checks scan risk) := by
  refine (item_raises hrisk).bind fun _ _ => (policyStringArray_raises h _ _ _).bind fun _ _ => ?_
  exact (ErrorsIn.raiseIf (h _)).bind fun _ _ => .pure

/-- What the loader of the policy can raise: its violation, and what `json.loads` raises. -/
theorem parseRiskPolicy_raises {raw : Bytes}
    (hloads : ErrorsIn P ((parseJsonObject raw "policy.schema" "risk policy").mapError
      (.restate fun _ _ reason => policyError reason))) :
    ErrorsIn P (parseRiskPolicy raw) := by
  refine hloads.bind fun payload _ => (ErrorsIn.raiseIf (h _)).bind fun _ hfields => ?_
  have hkeys := not_not.mp (Checked.raiseIf_eq_ok.mp hfields)
  have item {key : Str} (hkey : key ∈ policyFields) : ErrorsIn P (payload.item key) :=
    item_raises ((hkeys key).mpr hkey)
  have array (raw : Json) (field : Str) : ErrorsIn P (policyStringArray raw field) :=
    policyStringArray_raises h _ _ _
  refine (item (by decide)).bind fun _ _ => (schemaVersionOne_raises (h _) _).bind fun _ _ => ?_
  refine (item (by decide)).bind fun _ _ => (array _ _).bind fun known_risks _ => ?_
  refine (item (by decide)).bind fun raw_rules _ => ?_
  cases raw_rules with
  | arr raw_rules =>
    refine (ErrorsIn.raiseIf (h _)).bind fun _ _ => ?_
    refine (ErrorsIn.foldlM fun _ _ _ => parseRule_raises h _ _ _).bind fun _ _ => ?_
    refine (item (by decide)).bind fun _ _ => (array _ _).bind fun _ _ => ?_
    refine (ErrorsIn.forM (validatePolicyPattern_raises h)).bind fun _ _ => ?_
    refine (item (by decide)).bind fun raw_risk_checks _ => ?_
    cases raw_risk_checks with
    | obj raw_risk_checks =>
      refine (ErrorsIn.raiseIf (h _)).bind fun _ hchecks => ?_
      have hrisks := not_not.mp (Checked.raiseIf_eq_ok.mp hchecks)
      exact (ErrorsIn.foldlM fun scan risk hrisk =>
        parseRiskChecks_raises h ((hrisks risk).mpr hrisk) scan).bind fun _ _ => .pure
    | _ => exact ErrorsIn.error.mpr (h _)
  | _ => exact ErrorsIn.error.mpr (h _)

omit h in
/-- A refused policy does not claim to pass. -/
theorem parseRiskPolicy_rejects (raw : Bytes) : ErrorsIn Failure.Rejects (parseRiskPolicy raw) :=
  parseRiskPolicy_raises (fun _ => policyError_rejects) ((parseJsonObject_rejects _ _ _).mapError
    fun e _ => Failure.restate_rejects (fun _ _ _ => policyError_rejects) e)

end Refusals

end CoffeeOrder.Harness
