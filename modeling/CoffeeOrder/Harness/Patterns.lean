import CoffeeOrder.Harness.State
import CoffeeOrder.Kit.Segments

/-!
# Path patterns, plan paths and branches

A pattern is an exact repository path or, with a trailing `/**`, a directory and all
below it.
-/

namespace CoffeeOrder.Harness

open Kit Python

/-- `FORBIDDEN_PLAN_PATTERNS`. -/
def forbiddenPlanPatterns : List Str :=
  ["**", "src/**", "src/main/**", "src/main/java/**", "src/test/**", "docs/**", "harness/**",
    "scripts/**", ".github/**"]

/-- The characters `*?[]` of other pattern languages. -/
def isPatternChar (c : CodePoint) : Bool := c ∈ ("*?[]" : Str)

/-- A pattern without its `/**`. -/
def patternBody (pattern : Str) : Str :=
  if pattern.endsWith "/**" then pattern.dropEnd 3 else pattern

/-- `_validate_repository_pattern`. -/
def validateRepositoryPattern (pattern check_id : Str) : Except Failure Unit := do
  let body := patternBody pattern
  let segments := body.split .slash
  raiseIf (pattern ≠ pattern.strip ∨ pattern.startsWith "/" ∨ pattern.contains "\\" ∨
      pattern.contains "//" ∨ pattern.any CodePoint.isControl ∨ body = [] ∨ body.endsWith "/" ∨
      ∃ segment ∈ segments, segment ∈ (["", ".", ".."] : List Str))
    (.HarnessViolation .FAIL check_id ("저장소 상대 경로만 허용됩니다: " ++ pattern))
  raiseIf (body.any isPatternChar)
    (.HarnessViolation .FAIL check_id ("정확한 경로 또는 trailing /** pattern만 허용됩니다: " ++ pattern))

/-- `path_matches`. -/
def pathMatches (pattern path : Str) : Bool :=
  if !pattern.endsWith "/**" then pattern = path
  else
    let directory := (pattern.dropEnd 3).rstripOf .slash
    path = directory || path.startsWith (directory ++ "/")

/-- `validate_plan_pattern`. -/
def validatePlanPattern (pattern : Str) : Except Failure Unit := do
  raiseIf (pattern ∈ forbiddenPlanPatterns)
    (.HarnessViolation .REPLAN_REQUIRED "plan.scope"
      ("광범위한 allowedPaths pattern은 허용되지 않습니다: " ++ pattern))
  validateRepositoryPattern pattern "plan.schema"

/-- `re.fullmatch(r"v[1-9]\d*", version)`. -/
def isVersion : Str → Bool
  | v :: digit :: digits => v = 0x76 && digit.isNonzeroDigit && digits.all CodePoint.isDecimal
  | _ => false

/-- The violation of a malformed `contractChanges` declaration. -/
def malformedContractChange : Failure :=
  .HarnessViolation .REPLAN_REQUIRED "plan.contract-changes"
    "contractChanges는 '<정확한 경로> v<양의 정수>' 형식이어야 합니다."

/-- `contract_change_path`. -/
def contractChangePath (declaration : Str) : Except Failure Str := do
  let some (path, version) := declaration.rpartition 0x20 | throw malformedContractChange
  raiseIf (path = [] ∨ path.any isPatternChar ∨ !isVersion version) malformedContractChange
  (validateRepositoryPattern path "plan.contract-changes").mapError
    (.restate fun _ _ _ => malformedContractChange)
  return path

/-- `[a-z0-9]+(?:-[a-z0-9]+)*`. -/
def isSlug (s : Str) : Bool :=
  (s.split 0x2d).all fun part => part ≠ [] && part.all CodePoint.isSlugChar

/-- The digits of `[1-9][0-9]*` at the front. -/
def issueDigits (s : Str) : Option Str :=
  let digits := s.takeWhile CodePoint.isDigit
  if digits.head?.any CodePoint.isNonzeroDigit then some digits else none

/-- The digits of `([1-9][0-9]*)-[a-z0-9]+(?:-[a-z0-9]+)*`. -/
def issueOfSlug (s : Str) : Option Str := do
  let digits ← issueDigits s
  let rest : Str := s.drop digits.length
  if rest.startsWith "-" && isSlug (rest.drop 1) then some digits else none

/-- The group of `LEGACY_PLAN_PATH_PATTERN`. -/
def legacyPlanIssue (path : Str) : Option Str := do
  let name ← path.between "harness/plans/" ".json"
  let digits ← issueDigits name
  if digits = name then some digits else none

/-- The group of `READABLE_PLAN_PATH_PATTERN`. -/
def readablePlanIssue (path : Str) : Option Str := do
  issueOfSlug (← path.between "harness/plans/issue-" ".json")

/-- `plan_path_matches_issue`. -/
def planPathMatchesIssue (relative_path : Str) (issue : ℤ) : Except Exc Bool :=
  match (legacyPlanIssue relative_path).or (readablePlanIssue relative_path) with
  | some digits => do return (← intOfDigits digits) = issue
  | none => return false

/-- The second group of `BRANCH_PATTERN`. -/
def branchIssue (branch : Str) : Option Str :=
  (["feature/", "fix/", "refactor/", "docs/"] : List Str).findSome? fun kind =>
    if branch.startsWith kind then issueOfSlug (branch.drop kind.length) else none

/-- `validate_branch`. -/
def validateBranch (branch : Str) (issue : ℤ) : Except Failure Unit := do
  let some digits := branchIssue branch
    | throw (.HarnessViolation .REPLAN_REQUIRED "git.branch"
        ("branch는 feature|fix|refactor|docs/<issue>-<lowercase-kebab> 형식이어야 합니다: " ++
          branch.orElse "<detached>"))
  let branch_issue ← orRaise (intOfDigits digits)
  raiseIf (branch_issue ≠ issue)
    (.HarnessViolation .REPLAN_REQUIRED "git.branch"
      ("branch issue 번호 " ++ Str.ofInt branch_issue ++ "와 plan issue 번호 " ++ Str.ofInt issue ++
        "가 다릅니다."))

/-- `SHA_PATTERN`. -/
def isSha (s : Str) : Bool := s.length = 40 && s.all CodePoint.isHexDigit

/-- `PLAN_HASH_PATTERN`. -/
def isPlanHash (s : Str) : Bool := s.length = 64 && s.all CodePoint.isHexDigit

/-- What a pattern says: an exact pattern covers its own path, a directory pattern the
paths whose first segments are those of the directory. -/
def Covers (pattern path : Str) : Prop :=
  if pattern.endsWith "/**" then
    (pattern.dropEnd 3).split .slash <+: path.split .slash
  else path = pattern

instance (pattern path : Str) : Decidable (Covers pattern path) :=
  inferInstanceAs (Decidable (if pattern.endsWith "/**" then _ else _))

/-- A string that passed as a pattern. -/
def IsPattern (pattern : Str) : Prop :=
  ∃ check_id, validateRepositoryPattern pattern check_id = .ok ()

/-- The directory of a pattern does not end in a slash, so nothing is stripped from it. -/
theorem IsPattern.rstripOf_body {pattern : Str} (h : IsPattern pattern) :
    (patternBody pattern).rstripOf .slash = patternBody pattern := by
  obtain ⟨check_id, hvalid⟩ := h
  have hends : ¬(patternBody pattern).endsWith "/" = true := by
    obtain ⟨hbad, -⟩ := Checked.raiseIf_bind_eq_ok.mp hvalid
    simp only [not_or] at hbad
    exact hbad.2.2.2.2.2.2.1
  refine List.rdropWhile_eq_self_iff.mpr fun hne hlast => hends ?_
  refine List.isSuffixOf_iff_suffix.mpr ⟨(patternBody pattern).dropLast, ?_⟩
  rw [show Str.ofString "/" = [(patternBody pattern).getLast hne] from
    congrArg ([·]) (of_decide_eq_true hlast).symm]
  exact List.dropLast_append_getLast hne

/-- **Matching is coverage.** For a pattern that passed, the code's comparison of
strings is the comparison of path segments. -/
theorem pathMatches_iff_covers {pattern path : Str} (h : IsPattern pattern) :
    pathMatches pattern path = true ↔ Covers pattern path := by
  unfold pathMatches Covers
  by_cases hdir : pattern.endsWith "/**" = true
  · have hbody : (pattern.dropEnd 3).rstripOf .slash = pattern.dropEnd 3 := by
      simpa only [patternBody, hdir, if_true] using h.rstripOf_body
    simp only [hdir, Bool.not_true, Bool.false_eq_true, if_false, if_true, hbody, Bool.or_eq_true,
      decide_eq_true_eq]
    exact (or_congr_right List.isPrefixOf_iff_prefix).trans splitOn_prefix_iff.symm
  · simp only [hdir, Bool.not_false, if_true, decide_eq_true_eq, Bool.false_eq_true, if_false]
    exact eq_comm

section Refusals

variable {P : Failure → Prop}

/-- A malformed pattern raises a violation of its check. -/
theorem validateRepositoryPattern_raises {check_id : Str}
    (h : ∀ reason, P (.HarnessViolation .FAIL check_id reason)) (pattern : Str) :
    ErrorsIn P (validateRepositoryPattern pattern check_id) :=
  (ErrorsIn.raiseIf (h _)).bind fun _ _ => ErrorsIn.raiseIf (h _)

/-- A malformed pattern of a plan is refused. -/
theorem validatePlanPattern_raises (h : Refused P) (pattern : Str) :
    ErrorsIn P (validatePlanPattern pattern) :=
  (ErrorsIn.raiseIf (h (by decide))).bind fun _ _ =>
    validateRepositoryPattern_raises (fun _ => h (by decide)) _

/-- Whatever is refused is refused in one way. -/
theorem contractChangePath_refuses (hmalformed : P malformedContractChange) (declaration : Str) :
    ErrorsIn P (contractChangePath declaration) := by
  unfold contractChangePath
  cases declaration.rpartition 0x20 with
  | none => exact ErrorsIn.throw.mpr hmalformed
  | some parts =>
    refine (ErrorsIn.raiseIf hmalformed).bind fun _ _ => ErrorsIn.bind ?_ fun _ _ => .pure
    exact (validateRepositoryPattern_raises (fun _ => trivial) _).mapError
      (Failure.restate_violation fun _ _ _ => hmalformed)

/-- A malformed contract change is refused. -/
theorem contractChangePath_raises (h : Refused P) (declaration : Str) :
    ErrorsIn P (contractChangePath declaration) :=
  contractChangePath_refuses (h (by decide)) declaration

/-- An issue number in a branch is refused, or it is too long for `int`. -/
theorem validateBranch_raises (h : Refused P) {branch : Str}
    (hint : ∀ digits, branchIssue branch = some digits → ErrorsIn P (orRaise (intOfDigits digits)))
    (issue : ℤ) : ErrorsIn P (validateBranch branch issue) := by
  unfold validateBranch
  cases hdigits : branchIssue branch with
  | none => exact ErrorsIn.throw.mpr (h (by decide))
  | some digits => exact (hint digits hdigits).bind fun _ _ => ErrorsIn.raiseIf (h (by decide))

/-- A refused branch does not claim to pass. -/
theorem validateBranch_rejects (branch : Str) (issue : ℤ) :
    ErrorsIn Failure.Rejects (validateBranch branch issue) :=
  validateBranch_raises refused_rejects (fun _ _ => orRaise_rejects _) issue

end Refusals

end CoffeeOrder.Harness
