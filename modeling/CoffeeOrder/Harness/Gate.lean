import CoffeeOrder.Harness.Policy

/-!
# The diff gate

`evaluate` checks the changed paths against the plan and the policy in four steps. The
steps accept a list of paths exactly if each path on it, seen alone, is allowed.
-/

namespace CoffeeOrder.Harness

open Kit Python

/-- `RiskClassification`. -/
structure RiskClassification where
  detected_risks : List Str
  unclassified_paths : List Str

/-- `scope_violations`. -/
def scopeViolations (changed_paths : List Str) (plan : Plan) : List Str :=
  Str.sortedSet (changed_paths.filter fun path =>
    path ≠ plan.relative_path ∧ ¬plan.allowed_paths.any fun pattern => pathMatches pattern path)

/-- Some pattern of the rule matches the path. -/
def RiskRule.matchesPath (rule : RiskRule) (path : Str) : Bool :=
  rule.patterns.any fun pattern => pathMatches pattern path

/-- One pass of the loop of `classify_risks`. -/
def classifyPath (policy : RiskPolicy) (plan_path : Str) (found : List Str × List Str)
    (path : Str) : List Str × List Str :=
  if path = plan_path then found
  else
    let matched := policy.rules.filter fun rule => rule.matchesPath path
    (found.1 ++ matched.flatMap (·.risks),
      if matched.isEmpty then found.2 ++ [path] else found.2)

/-- `classify_risks`. -/
def classifyRisks (changed_paths : List Str) (policy : RiskPolicy) (plan_path : Str) :
    RiskClassification :=
  let found := (Str.sortedSet changed_paths).foldl (classifyPath policy plan_path) ([], [])
  ⟨Str.sortedSet found.1, found.2⟩

/-- `", ".join(repr(path) for path in paths)`. -/
def renderPaths [Runtime] (paths : List Str) : Str := Str.join ", " (paths.map Runtime.repr)

/-- `validate_risk_declarations`. -/
def validateRiskDeclarations [Runtime] (plan : Plan) (classification : RiskClassification) :
    Except Failure Unit := do
  raiseIf (classification.unclassified_paths ≠ []) (.HarnessViolation .REPLAN_REQUIRED
    "risk.classification" ("미분류 경로가 있습니다: " ++ renderPaths classification.unclassified_paths))
  let undeclared_risks := Str.sortedSet
    (classification.detected_risks.filter (· ∉ plan.declared_risks))
  raiseIf (undeclared_risks ≠ []) (.HarnessViolation .REPLAN_REQUIRED "risk.declaration"
    ("감지되었지만 미선언된 위험이 있습니다: " ++ listRepr undeclared_risks))

/-- `validate_contract_changes`. -/
def validateContractChanges [Runtime] (changed_paths : List Str) (plan : Plan)
    (policy : RiskPolicy) : Except Failure Unit := do
  let declared_paths ← plan.contract_changes.mapM contractChangePath
  let undeclared_protected_paths := Str.sortedSet (changed_paths.filter fun path =>
    path ≠ plan.relative_path ∧
      (policy.protected_patterns.any fun pattern => pathMatches pattern path) ∧
      path ∉ declared_paths)
  raiseIf (undeclared_protected_paths ≠ []) (.HarnessViolation .REPLAN_REQUIRED
    "trust-root.contract" ("보호 경로의 정확한 contractChanges 선언이 없습니다: " ++
      renderPaths undeclared_protected_paths))

/-- The four steps accept the changed paths. -/
structure GateAccepts [Runtime] (policy : RiskPolicy) (plan : Plan) (changed_paths : List Str) :
    Prop where
  in_scope : scopeViolations changed_paths plan = []
  declared : validateRiskDeclarations plan
    (classifyRisks changed_paths policy plan.relative_path) = .ok ()
  contracts : validateContractChanges changed_paths plan policy = .ok ()

/-- A rule is about a path that one of its patterns covers. -/
def RiskRule.Covers (rule : RiskRule) (path : Str) : Prop :=
  ∃ pattern ∈ rule.patterns, Harness.Covers pattern path

/-- What the plan and the policy ask of one changed path. -/
structure PathAllowed (policy : RiskPolicy) (plan : Plan) (path : Str) : Prop where
  /-- An allowed pattern covers the path. -/
  allowed : ∃ pattern ∈ plan.allowed_paths, Covers pattern path
  /-- A rule is about the path. -/
  classified : ∃ rule ∈ policy.rules, rule.Covers path
  /-- The risks of all rules about the path are declared. -/
  risks_declared : ∀ rule ∈ policy.rules, rule.Covers path →
    ∀ risk ∈ rule.risks, risk ∈ plan.declared_risks
  /-- A protected path is itself the path of a declaration. -/
  contract_declared : (∃ pattern ∈ policy.protected_patterns, Covers pattern path) →
    ∃ declaration ∈ plan.contract_changes, contractChangePath declaration = .ok path

/-- For patterns that passed, some pattern matches if some pattern covers. -/
theorem any_pathMatches_iff {patterns : List Str} {path : Str}
    (h : ∀ pattern ∈ patterns, IsPattern pattern) :
    (patterns.any fun pattern => pathMatches pattern path) = true ↔
      ∃ pattern ∈ patterns, Covers pattern path := by
  rw [List.any_eq_true]
  exact exists_congr fun pattern => and_congr_right fun hp => pathMatches_iff_covers (h pattern hp)

/-- A rule of a well-formed policy matches the paths that its patterns cover. -/
theorem RiskPolicy.WellFormed.matchesPath_iff {policy : RiskPolicy} (h : policy.WellFormed)
    {rule : RiskRule} (hrule : rule ∈ policy.rules) {path : Str} :
    rule.matchesPath path = true ↔ rule.Covers path :=
  any_pathMatches_iff (h.rule_patterns rule hrule)

/-- The risks that the loop has found. -/
theorem mem_foldl_classifyPath_risks {policy : RiskPolicy} {plan_path risk : Str}
    {paths : List Str} {found : List Str × List Str} :
    risk ∈ (paths.foldl (classifyPath policy plan_path) found).1 ↔ risk ∈ found.1 ∨
      ∃ path ∈ paths, path ≠ plan_path ∧
        ∃ rule ∈ policy.rules, rule.matchesPath path = true ∧ risk ∈ rule.risks := by
  induction paths generalizing found with
  | nil => simp
  | cons path paths ih =>
    rw [List.foldl_cons, ih, classifyPath]
    split
    · next heq => simp [heq]
    · next hne => simp [hne, or_assoc, and_assoc]

/-- The paths that the loop has found unclassified. -/
theorem mem_foldl_classifyPath_paths {policy : RiskPolicy} {plan_path p : Str}
    {paths : List Str} {found : List Str × List Str} :
    p ∈ (paths.foldl (classifyPath policy plan_path) found).2 ↔ p ∈ found.2 ∨
      (p ∈ paths ∧ p ≠ plan_path ∧ ∀ rule ∈ policy.rules, ¬rule.matchesPath p = true) := by
  induction paths generalizing found with
  | nil => simp
  | cons path paths ih =>
    rw [List.foldl_cons, ih, classifyPath]
    split
    · next heq => grind
    · next hne =>
      by_cases hnone : (policy.rules.filter fun rule => rule.matchesPath path).isEmpty
      · have hall := List.filter_eq_nil_iff.mp (List.isEmpty_iff.mp hnone)
        simp only [hnone, if_true, List.mem_append, List.mem_singleton]
        grind
      · have hsome : ¬∀ rule ∈ policy.rules, ¬rule.matchesPath path = true := fun hall =>
          hnone (List.isEmpty_iff.mpr (List.filter_eq_nil_iff.mpr hall))
        simp only [hnone, Bool.false_eq_true, if_false]
        grind

section Steps

variable {policy : RiskPolicy} {plan : Plan} {changed_paths known_risks : List Str}

/-- The scope is kept if every changed path but the plan is covered by an allowed pattern. -/
theorem scopeViolations_eq_nil (hplan : plan.WellFormed known_risks) :
    scopeViolations changed_paths plan = [] ↔ ∀ path ∈ changed_paths, path ≠ plan.relative_path →
      ∃ pattern ∈ plan.allowed_paths, Covers pattern path := by
  rw [scopeViolations, Str.sortedSet_eq_nil, List.filter_eq_nil_iff]
  refine forall₂_congr fun path _ => ?_
  rw [← any_pathMatches_iff hplan.patterns]
  simp only [decide_eq_true_eq, not_and, not_not]

/-- Nothing is unclassified if every changed path but the plan is covered by a rule. -/
theorem classifyRisks_unclassified (hpolicy : policy.WellFormed) :
    (classifyRisks changed_paths policy plan.relative_path).unclassified_paths = [] ↔
      ∀ path ∈ changed_paths, path ≠ plan.relative_path →
        ∃ rule ∈ policy.rules, rule.Covers path := by
  simp only [classifyRisks, List.eq_nil_iff_forall_not_mem, mem_foldl_classifyPath_paths,
    Str.mem_sortedSet, List.not_mem_nil, false_or, not_and, not_forall, not_not]
  refine forall₃_congr fun path _ _ => ⟨?_, ?_⟩
  · rintro ⟨rule, hrule, hmatch⟩
    exact ⟨rule, hrule, (hpolicy.matchesPath_iff hrule).mp hmatch⟩
  · rintro ⟨rule, hrule, hcovers⟩
    exact ⟨rule, hrule, (hpolicy.matchesPath_iff hrule).mpr hcovers⟩

/-- The detected risks are those of the rules that cover a changed path. -/
theorem mem_classifyRisks_detected (hpolicy : policy.WellFormed) {plan_path risk : Str} :
    risk ∈ (classifyRisks changed_paths policy plan_path).detected_risks ↔
      ∃ path ∈ changed_paths, path ≠ plan_path ∧
        ∃ rule ∈ policy.rules, rule.Covers path ∧ risk ∈ rule.risks := by
  simp only [classifyRisks, Str.mem_sortedSet, mem_foldl_classifyPath_risks, List.not_mem_nil,
    false_or]
  refine exists_congr fun path => and_congr_right fun _ => and_congr_right fun _ => ?_
  refine exists_congr fun rule => and_congr_right fun hrule => and_congr_left fun _ => ?_
  exact hpolicy.matchesPath_iff hrule

variable [Runtime]

/-- The declaration is complete if every changed path is covered and all its risks are declared.
-/
theorem validateRiskDeclarations_eq_ok (hpolicy : policy.WellFormed) :
    validateRiskDeclarations plan (classifyRisks changed_paths policy plan.relative_path) = .ok () ↔
      ∀ path ∈ changed_paths, path ≠ plan.relative_path →
        (∃ rule ∈ policy.rules, rule.Covers path) ∧
          ∀ rule ∈ policy.rules, rule.Covers path → ∀ risk ∈ rule.risks,
            risk ∈ plan.declared_risks := by
  refine Checked.raiseIf_bind_eq_ok.trans ?_
  rw [not_not, classifyRisks_unclassified hpolicy, Checked.raiseIf_eq_ok,
    not_sortedSet_filter_ne_nil]
  simp only [mem_classifyRisks_detected hpolicy]
  grind

omit [Runtime] in
/-- The paths of the declarations of a plan. -/
theorem mem_declared_iff {declared : List Str}
    (h : plan.contract_changes.mapM contractChangePath = .ok declared) {path : Str} :
    path ∈ declared ↔
      ∃ declaration ∈ plan.contract_changes, contractChangePath declaration = .ok path := by
  have hforall := Checked.mapM_eq_ok.mp h
  constructor
  · intro hpath
    obtain ⟨i, hi, rfl⟩ := List.mem_iff_getElem.mp hpath
    exact ⟨_, List.getElem_mem _, hforall.get (hforall.length_eq ▸ hi) hi⟩
  · rintro ⟨declaration, hmem, hdeclared⟩
    obtain ⟨i, hi, rfl⟩ := List.mem_iff_getElem.mp hmem
    have hlen : i < declared.length := hforall.length_eq ▸ hi
    obtain rfl := Except.ok.inj ((hforall.get hi hlen).symm.trans hdeclared)
    exact List.getElem_mem _

/-- The contracts are kept if every changed path that is protected is declared. -/
theorem validateContractChanges_eq_ok (hpolicy : policy.WellFormed)
    (hplan : plan.WellFormed known_risks) :
    validateContractChanges changed_paths plan policy = .ok () ↔
      ∀ path ∈ changed_paths, path ≠ plan.relative_path →
        (∃ pattern ∈ policy.protected_patterns, Covers pattern path) →
          ∃ declaration ∈ plan.contract_changes, contractChangePath declaration = .ok path := by
  obtain ⟨declared, hdeclared⟩ := hplan.declarations
  rw [validateContractChanges, Checked.bind_of_eq_ok hdeclared, Checked.raiseIf_eq_ok, not_not,
    Str.sortedSet_eq_nil, List.filter_eq_nil_iff]
  refine forall₂_congr fun path _ => ?_
  rw [← any_pathMatches_iff hpolicy.protected_patterns, ← mem_declared_iff hdeclared]
  simp only [decide_eq_true_eq, not_and, not_not]

/-- The four steps look at each path alone. -/
theorem gateAccepts_iff (hpolicy : policy.WellFormed) (hplan : plan.WellFormed known_risks) :
    GateAccepts policy plan changed_paths ↔
      ∀ path ∈ changed_paths, path ≠ plan.relative_path → PathAllowed policy plan path := by
  constructor
  · rintro ⟨hscope, hdeclared, hcontracts⟩ path hpath hne
    obtain ⟨hclassified, hrisks⟩ :=
      (validateRiskDeclarations_eq_ok hpolicy).mp hdeclared path hpath hne
    exact ⟨(scopeViolations_eq_nil hplan).mp hscope path hpath hne, hclassified, hrisks,
      (validateContractChanges_eq_ok hpolicy hplan).mp hcontracts path hpath hne⟩
  · intro h
    refine ⟨(scopeViolations_eq_nil hplan).mpr fun path hpath hne => (h path hpath hne).allowed,
      (validateRiskDeclarations_eq_ok hpolicy).mpr fun path hpath hne => ?_,
      (validateContractChanges_eq_ok hpolicy hplan).mpr fun path hpath hne =>
        (h path hpath hne).contract_declared⟩
    exact ⟨(h path hpath hne).classified, (h path hpath hne).risks_declared⟩

end Steps

/-- A plan that allows and declares more allows the same paths. -/
theorem PathAllowed.mono {policy : RiskPolicy} {plan plan' : Plan} {path : Str}
    (h : PathAllowed policy plan path) (hallowed : plan.allowed_paths ⊆ plan'.allowed_paths)
    (hrisks : plan.declared_risks ⊆ plan'.declared_risks)
    (hcontracts : plan.contract_changes ⊆ plan'.contract_changes) :
    PathAllowed policy plan' path where
  allowed := h.allowed.imp fun _ hp => ⟨hallowed hp.1, hp.2⟩
  classified := h.classified
  risks_declared rule hrule hcovers risk hrisk :=
    hrisks (h.risks_declared rule hrule hcovers risk hrisk)
  contract_declared hprotected :=
    (h.contract_declared hprotected).imp fun _ hd => ⟨hcontracts hd.1, hd.2⟩

/-- **The diff gate is pointwise.** For a policy and a plan that were accepted, the four
steps accept the changed paths if and only if each of them but the plan's own is allowed.
So only the set of paths matters, no path hides that another one is not allowed, and a
plan that allows and declares more is accepted where the first one is. -/
theorem diff_gate_pointwise [ByteRuntime] {rawPolicy rawPlan : Bytes} {relative_path : Str}
    {policy : RiskPolicy} {plan : Plan} (hpolicy : parseRiskPolicy rawPolicy = .ok policy)
    (hplan : parsePlan rawPlan relative_path policy.known_risks = .ok plan)
    (changed_paths : List Str) :
    (GateAccepts policy plan changed_paths ↔
      ∀ path ∈ changed_paths, path ≠ plan.relative_path → PathAllowed policy plan path) ∧
    (∀ others : List Str, (∀ path, path ∈ others ↔ path ∈ changed_paths) →
      (GateAccepts policy plan others ↔ GateAccepts policy plan changed_paths)) ∧
    (∀ path ∈ changed_paths, path ≠ plan.relative_path → ¬PathAllowed policy plan path →
      ¬GateAccepts policy plan changed_paths) ∧
    ∀ (rawPlan' : Bytes) (plan' : Plan),
      parsePlan rawPlan' relative_path policy.known_risks = .ok plan' →
      plan.allowed_paths ⊆ plan'.allowed_paths → plan.declared_risks ⊆ plan'.declared_risks →
      plan.contract_changes ⊆ plan'.contract_changes →
      GateAccepts policy plan changed_paths → GateAccepts policy plan' changed_paths := by
  have hpolicy' := parseRiskPolicy_wellFormed hpolicy
  obtain ⟨hplan', hpath, -⟩ := parsePlan_wellFormed hplan
  have hiff (paths : List Str) : GateAccepts policy plan paths ↔ _ :=
    gateAccepts_iff hpolicy' hplan'
  refine ⟨hiff _, fun others hothers => ?_, fun path hmem hne hbad haccepts => ?_, ?_⟩
  · simp only [hiff, hothers]
  · exact hbad ((hiff _).mp haccepts path hmem hne)
  · intro rawPlan' plan' hparse hallowed hrisks hcontracts haccepts
    obtain ⟨hlarger, hpath', -⟩ := parsePlan_wellFormed hparse
    refine (gateAccepts_iff hpolicy' hlarger).mpr fun path hmem hne => ?_
    rw [hpath', ← hpath] at hne
    exact ((hiff _).mp haccepts path hmem hne).mono hallowed hrisks hcontracts

namespace Sample

/-- A policy with one rule and a protected file. -/
def rawPolicy : Bytes :=
  ["\x7b\"schemaVersion\":1,", "\"knownRisks\":[\"docs\"],", "\"rules\":[\x7b\"id\":\"docs\",",
    "\"patterns\":[\"docs/guide/**\"],", "\"risks\":[\"docs\"]\x7d],",
    "\"protectedPatterns\":[\"docs/guide/policy.md\"],",
    "\"riskChecks\":\x7b\"docs\":[\"docs.links\"]\x7d\x7d"].flatMap Bytes.ofString

/-- A policy that asks for a check of the preflight. -/
def rawPreflightPolicy : Bytes :=
  ["\x7b\"schemaVersion\":1,", "\"knownRisks\":[\"docs\"],", "\"rules\":[\x7b\"id\":\"docs\",",
    "\"patterns\":[\"docs/guide/**\"],", "\"risks\":[\"docs\"]\x7d],",
    "\"protectedPatterns\":[\"docs/guide/policy.md\"],",
    "\"riskChecks\":\x7b\"docs\":[\"environment.java\"]\x7d\x7d"].flatMap Bytes.ofString

/-- The value of a policy file with the given check for its only risk. -/
def policyJson (check_id : Str) : Json :=
  .obj [("schemaVersion", .int 1), ("knownRisks", .arr [.str "docs"]),
    ("rules", .arr [.obj [("id", .str "docs"), ("patterns", .arr [.str "docs/guide/**"]),
      ("risks", .arr [.str "docs"])]]),
    ("protectedPatterns", .arr [.str "docs/guide/policy.md"]),
    ("riskChecks", .obj [("docs", .arr [.str check_id])])]

/-- A plan for the files of the rule. -/
def rawPlan : Bytes :=
  ["\x7b\"issue\":7,", "\"targetBranch\":\"main\",", "\"objective\":\"guide\",",
    "\"allowedPaths\":[\"docs/guide/**\"],", "\"acceptanceCriteria\":[\"reads well\"],",
    "\"declaredRisks\":[\"docs\"],", "\"contractChanges\":[\"docs/guide/policy.md v2\"],",
    "\"nonGoals\":[\"code\"]\x7d"].flatMap Bytes.ofString

/-- The value of the plan file. -/
def planJson : Json :=
  .obj [("issue", .int 7), ("targetBranch", .str "main"), ("objective", .str "guide"),
    ("allowedPaths", .arr [.str "docs/guide/**"]), ("acceptanceCriteria", .arr [.str "reads well"]),
    ("declaredRisks", .arr [.str "docs"]),
    ("contractChanges", .arr [.str "docs/guide/policy.md v2"]), ("nonGoals", .arr [.str "code"])]

/-- The runtime on the three files. -/
instance runtime : ByteRuntime where
  loads _ := .error ⟨.JSONDecodeError, "Expecting value: line 1 column 1 (char 0)"⟩
  repr s := "'" ++ s ++ "'"
  format _ := []
  executable := "/usr/bin/python3"
  loadsPairs _ raw :=
    if raw = rawPolicy then .ok (policyJson "docs.links")
    else if raw = rawPreflightPolicy then .ok (policyJson "environment.java")
    else if raw = rawPlan then .ok planJson
    else .error ⟨.JSONDecodeError, "Expecting value: line 1 column 1 (char 0)"⟩
  sha256 raw :=
    if raw = rawPlan then "e8264235f705529d13ea1391c884dcce18491dc829c6491cc1bb8da16bb3a7e3" else []
  decodeReplace raw := raw.map fun b => Bytes.codePoint b.toNat
  isWordChar c := c.isSlugChar || c == 0x5f

/-- A policy with the given check for its only risk. -/
def policyWith (check_id : Str) : RiskPolicy where
  schema_version := 1
  known_risks := ["docs"]
  rules := [⟨"docs", ["docs/guide/**"], ["docs"]⟩]
  protected_patterns := ["docs/guide/policy.md"]
  risk_checks := [("docs", [check_id])]

/-- What the policy file says. -/
def policy : RiskPolicy := policyWith "docs.links"

/-- What the plan file says. -/
def plan : Plan where
  issue := 7
  target_branch := "main"
  objective := "guide"
  allowed_paths := ["docs/guide/**"]
  acceptance_criteria := ["reads well"]
  declared_risks := ["docs"]
  contract_changes := ["docs/guide/policy.md v2"]
  non_goals := ["code"]
  relative_path := "harness/plans/7.json"
  plan_hash := "e8264235f705529d13ea1391c884dcce18491dc829c6491cc1bb8da16bb3a7e3"

/-- The text of the sample policy is read as the policy. -/
theorem parseRiskPolicy_eq : parseRiskPolicy rawPolicy = .ok policy := by decide +kernel

/-- The text of the sample plan is read as the plan. -/
theorem parsePlan_eq :
    parsePlan rawPlan "harness/plans/7.json" policy.known_risks = .ok plan := by decide +kernel

end Sample

/-- A new guide, a change of the protected file and the plan itself pass the gate; a
change outside the guide does not. -/
theorem diff_gate_pointwise_guide :
    GateAccepts Sample.policy Sample.plan
      ["docs/guide/policy.md", "harness/plans/7.json", "docs/guide/new.md"] ∧
    ¬GateAccepts Sample.policy Sample.plan ["docs/guide/new.md", "docs/readme.md"] := by
  have hgate := diff_gate_pointwise Sample.parseRiskPolicy_eq Sample.parsePlan_eq
  have hallowed (path : Str) (hcovers : Covers "docs/guide/**" path)
      (hcontract : path = "docs/guide/policy.md" ∨ ¬Covers "docs/guide/policy.md" path) :
      PathAllowed Sample.policy Sample.plan path := by
    refine ⟨⟨_, List.mem_singleton_self _, hcovers⟩,
      ⟨_, List.mem_singleton_self _, _, List.mem_singleton_self _, hcovers⟩, ?_, ?_⟩
    · intro rule hrule _
      obtain rfl := List.mem_singleton.mp hrule
      exact List.forall_mem_singleton.mpr (List.mem_singleton_self _)
    · rintro ⟨pattern, hpattern, hprotected⟩
      obtain rfl := List.mem_singleton.mp hpattern
      obtain rfl := hcontract.resolve_right (not_not.mpr hprotected)
      exact ⟨_, List.mem_singleton_self _, by decide +kernel⟩
  refine ⟨(hgate _).1.mpr ?_, (hgate _).2.2.1 "docs/readme.md" (by decide +kernel)
    (by decide +kernel) fun hbad => ?_⟩
  · intro path hpath hne
    have hcases : path = "docs/guide/policy.md" ∨ path = "docs/guide/new.md" := by
      simpa [show path ≠ "harness/plans/7.json" from hne] using hpath
    rcases hcases with rfl | rfl
    · exact hallowed _ (by decide +kernel) (.inl rfl)
    · exact hallowed _ (by decide +kernel) (.inr (by decide +kernel))
  · obtain ⟨pattern, hpattern, hcovers⟩ := hbad.allowed
    obtain rfl := List.mem_singleton.mp hpattern
    exact absurd hcovers (by decide +kernel)

end CoffeeOrder.Harness
