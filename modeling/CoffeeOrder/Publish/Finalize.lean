import CoffeeOrder.Kit.Script
import CoffeeOrder.Python.Json
import Mathlib.Data.List.DropRight

/-!
# Publishing a verified branch

`agent-publish.py` as a script that asks for commands and files: `finalize` reads
the manifest, checks the branch, evaluates, pushes, finds or creates the pull
request and, if asked to, merges it and closes the issue.
-/

namespace CoffeeOrder.Publish

open Kit Python

/-- `Manifest`. -/
structure Manifest where
  issue : ℤ
  target_branch : Str
  objective : Str
  relative_path : Str

/-- The states of a `FinalizationResult`. -/
inductive FinalState
  | READY_FOR_REVIEW
  | COMPLETED
  deriving DecidableEq

/-- `FinalizationResult`. -/
structure FinalizationResult where
  state : FinalState
  issue : ℤ
  branch : Str
  pr_number : ℤ
  pr_url : Str
  merged : Bool
  issue_closed : Option Bool
  deriving DecidableEq

/-- `subprocess.CompletedProcess[str]`. -/
structure CompletedProcess where
  returncode : ℤ
  stdout : Str
  stderr : Str

/-- `PublishError`, or any other exception. -/
inductive Failure
  | PublishError (message : Str)
  | raised (e : Exc)
  deriving DecidableEq

/-- The commands that the script passes to its runner. -/
inductive Command
  | branchShowCurrent
  | revParseHead
  | statusPorcelain
  | evaluate (plan_path : Str)
  | push (branch : Str)
  | prList (branch base : Str)
  | prCreate (base branch title body : Str)
  | prEdit (number : ℤ) (body : Str)
  | prReady (number : ℤ)
  | prChecks (number : ℤ)
  | prMerge (number : ℤ)
  | prView (number : ℤ)
  | issueView (issue : ℤ)
  | issueClose (issue pr_number : ℤ)
  deriving DecidableEq

/-- The argument vector of a command. -/
def Command.argv [Runtime] (root : Str) : Command → List Str
  | .branchShowCurrent => ["git", "branch", "--show-current"]
  | .revParseHead => ["git", "rev-parse", "HEAD"]
  | .statusPorcelain => ["git", "status", "--porcelain"]
  | .evaluate plan_path =>
    [Runtime.executable, root ++ "/scripts/agent-harness.py", "evaluate", plan_path]
  | .push branch => ["git", "push", "--set-upstream", "origin", branch]
  | .prList branch base =>
    ["gh", "pr", "list", "--state", "open", "--head", branch, "--base", base, "--json",
      "number,url,isDraft,headRefOid,body"]
  | .prCreate base branch title body =>
    ["gh", "pr", "create", "--base", base, "--head", branch, "--title", title, "--body", body]
  | .prEdit number body => ["gh", "pr", "edit", Str.ofInt number, "--body", body]
  | .prReady number => ["gh", "pr", "ready", Str.ofInt number]
  | .prChecks number => ["gh", "pr", "checks", Str.ofInt number, "--watch", "--fail-fast"]
  | .prMerge number =>
    ["gh", "pr", "merge", Str.ofInt number, "--squash", "--delete-branch=false"]
  | .prView number => ["gh", "pr", "view", Str.ofInt number, "--json", "state,mergedAt"]
  | .issueView issue => ["gh", "issue", "view", Str.ofInt issue, "--json", "state"]
  | .issueClose issue pr_number =>
    ["gh", "issue", "close", Str.ofInt issue, "--comment",
      "Closed after merging PR #" ++ Str.ofInt pr_number ++ "."]

/-- What the script asks the world for. -/
inductive Op
  | resolvePlan
  | readPlan
  | run (command : Command)
  /-- Of `build/harness/evaluation.json`. -/
  | readEvidence
  deriving DecidableEq

/-- Every operation may raise. -/
abbrev Op.Answer : Op → Type
  | .run _ => Except Exc CompletedProcess
  | _ => Except Exc Str

/-- A function of the script. -/
abbrev PublishM := Script Failure Op.Answer

/-- The steps of a run. -/
abbrev Trace := List (Step Op.Answer)

/-- Go on with a value, or raise what was raised. -/
def orRaise {α : Type} (x : Except Exc α) : PublishM α :=
  .ofExcept (x.mapError .raised)

/-- `runner(command, root)`. -/
def runner (command : Command) : PublishM CompletedProcess := .ask (.run command) orRaise

/-- The resolved path of the manifest, relative to the resolved root. -/
def resolvePlan : PublishM Str := .ask .resolvePlan orRaise

/-- The text of the manifest. -/
def readPlan : PublishM Str := .ask .readPlan orRaise

/-- The text of the evidence. -/
def readEvidence : PublishM Str := .ask .readEvidence orRaise

/-- `command_output`. -/
def commandOutput (command : Command) (description : Str) : PublishM Str := do
  let result ← runner command
  if result.returncode ≠ 0 then
    let detail := (result.stderr.orElse result.stdout).strip
    throw (.PublishError (description ++ " 실패: " ++ detail.orElse "알 수 없는 오류"))
  return result.stdout.strip

variable [Runtime]

/-- `load_manifest`. -/
def loadManifest : PublishM Manifest := do
  let (relative_path, issue, target_branch, objective) ← tryCatch (do
      let relative_path ← resolvePlan
      let payload ← orRaise (Runtime.loads (← readPlan))
      let issue ← orRaise (payload.item "issue")
      let target_branch ← orRaise (payload.item "targetBranch")
      let objective ← orRaise (payload.item "objective")
      return (relative_path, issue, target_branch, objective))
    fun
    | .raised error =>
      if error.isOSError ∨ error.isValueError ∨ error.type = .KeyError ∨
          error.type = .TypeError then
        throw (.PublishError ("manifest를 읽을 수 없습니다: " ++ error.text))
      else throw (.raised error)
    | failure => throw failure
  let .int issue := issue | throw (.PublishError "manifest issue가 올바르지 않습니다.")
  if issue < 1 then
    throw (.PublishError "manifest issue가 올바르지 않습니다.")
  let .str target_branch := target_branch
    | throw (.PublishError "manifest targetBranch가 올바르지 않습니다.")
  if target_branch = [] then
    throw (.PublishError "manifest targetBranch가 올바르지 않습니다.")
  let .str objective := objective
    | throw (.PublishError "manifest objective가 올바르지 않습니다.")
  if objective = [] then
    throw (.PublishError "manifest objective가 올바르지 않습니다.")
  return ⟨issue, target_branch, objective, relative_path⟩

/-- `re.fullmatch(r"[0-9a-f]{40}", head)`. -/
def isHeadSha (head : Str) : Bool := head.length = 40 && head.all CodePoint.isHexDigit

omit [Runtime] in
/-- `current_branch_and_head`. -/
def currentBranchAndHead : PublishM (Str × Str) := do
  let branch ← commandOutput .branchShowCurrent "현재 branch 확인"
  let head ← commandOutput .revParseHead "현재 HEAD 확인"
  if branch = [] then
    throw (.PublishError "detached HEAD에서는 publish할 수 없습니다.")
  if !isHeadSha head then
    throw (.PublishError "현재 HEAD SHA가 올바르지 않습니다.")
  return (branch, head)

/-- The kinds of issue branches. -/
def branchPrefixes : List Str := ["feature/", "fix/", "refactor/", "docs/"]

/-- The first group of `^(?:feature|fix|refactor|docs)/([1-9][0-9]*)-` in a branch name. -/
def branchIssue (branch : Str) : Option Str :=
  branchPrefixes.findSome? fun kind =>
    if kind.isPrefixOf branch then
      let rest := branch.drop kind.length
      let digits := rest.takeWhile CodePoint.isDigit
      if digits.head?.any CodePoint.isNonzeroDigit ∧
          ("-" : Str).isPrefixOf (rest.drop digits.length) then
        some digits
      else none
    else none

/-- `assert_issue_branch`. -/
def assertIssueBranch (branch : Str) (issue : ℤ) : PublishM Unit := do
  let refusal : Failure := .PublishError ("branch " ++ Runtime.repr branch ++ "가 issue #" ++
    Str.ofInt issue ++ " 전용 branch가 아닙니다.")
  let some digits := branchIssue branch | throw refusal
  if (← orRaise (intOfDigits digits)) ≠ issue then
    throw refusal

/-- `assert_clean_worktree`. -/
def assertCleanWorktree : PublishM Unit := do
  let status ← commandOutput .statusPorcelain "worktree 상태 확인"
  if status ≠ [] then
    throw (.PublishError ("publish 전 worktree가 clean해야 합니다: " ++
      Str.join ", " status.splitlines))

/-- `evaluate_and_read_evidence`. -/
def evaluateAndReadEvidence (plan_path head : Str) : PublishM Json := do
  let _ ← commandOutput (.evaluate plan_path) "harness evaluate"
  let evidence ← tryCatch (do orRaise (Runtime.loads (← readEvidence)))
    fun
    | .raised error =>
      if error.isOSError ∨ error.type = .JSONDecodeError then
        throw (.PublishError ("evaluation.json을 읽을 수 없습니다: " ++ error.text))
      else throw (.raised error)
    | failure => throw failure
  let state ← orRaise (evidence.get "state")
  if !state.isStr "PASS" then
    throw (.PublishError ("evaluate 결과가 PASS가 아닙니다: " ++
      match evidence.item "state" with
      | .ok state => Runtime.format state
      | .error _ => "<missing>"))
  let candidate ← orRaise (evidence.get "candidateHeadSha")
  if !candidate.isStr head then
    throw (.PublishError "evaluation의 candidate HEAD가 현재 HEAD와 다릅니다.")
  return evidence

/-- `pr_body`. -/
def prBody (manifest : Manifest) (head : Str) : Str :=
  Str.join "\n" ["## 변경 목적", "", "- 연결 이슈: Closes #" ++ Str.ofInt manifest.issue,
    "- 해결하려는 문제: " ++ manifest.objective, "", "## 하네스 검증", "",
    "- Manifest: `" ++ manifest.relative_path ++ "`", "- Evaluate: `PASS`",
    "- Candidate HEAD: `" ++ head ++ "`"]

/-- `parse_pr_list`. -/
def parsePrList (raw : Str) : PublishM (List Json) := do
  let payload ← match Runtime.loads (raw.orElse "[]") with
    | .ok payload => pure payload
    | .error error =>
      if error.type = .JSONDecodeError then
        throw (.PublishError ("PR 목록을 해석할 수 없습니다: " ++ error.text))
      else throw (.raised error)
  let .arr items := payload | throw (.PublishError "PR 목록 형식이 올바르지 않습니다.")
  if items.any fun | .obj _ => false | _ => true then
    throw (.PublishError "PR 목록 형식이 올바르지 않습니다.")
  return items

omit [Runtime] in
/-- The group of `/pull/([1-9][0-9]*)$` in a URL without trailing space. -/
def pullNumber (pr_url : Str) : Option Str :=
  let digits := pr_url.rtakeWhile CodePoint.isDigit
  if digits.head?.any CodePoint.isNonzeroDigit ∧
      ("/pull/" : Str).isSuffixOf (pr_url.rdropWhile CodePoint.isDigit) then
    some digits
  else none

/-- The URL and number of a created pull request. -/
def createPr (manifest : Manifest) (branch head : Str) (title : Option Str) :
    PublishM (ℤ × Str) := do
  let feature : Str := "feat: " ++ manifest.objective
  let pr_url ← commandOutput
    (.prCreate manifest.target_branch branch ((title.getD []).orElse feature)
      (prBody manifest head))
    "Ready for review PR 생성"
  let some digits := pullNumber pr_url
    | throw (.PublishError ("PR URL에서 번호를 읽을 수 없습니다: " ++ pr_url))
  return (← orRaise (intOfDigits digits), pr_url)

omit [Runtime] in
/-- The body of a pull request with the issue linked, if it has to be updated. -/
def linkedBody (issue : ℤ) (body : Json) : Except Exc (Option Str) :=
  let link : Str := "Closes #" ++ Str.ofInt issue
  let append (text : Str) : Str := text.rstrip ++ "\n\n" ++ link ++ "\n"
  match body with
  | .str text => .ok (if text.contains link then none else some (append text))
  | body => if body.truthy then .error (body.noAttribute "rstrip") else .ok (some (append []))

omit [Runtime] in
/-- Link the issue in the body of an existing pull request. -/
def linkIssue (issue number : ℤ) (existing : Json) : PublishM Unit := do
  let existing_body ← orRaise (existing.get "body")
  if let some updated_body ← orRaise (linkedBody issue existing_body) then
    let _ ← commandOutput (.prEdit number updated_body) "PR issue 연결 갱신"

omit [Runtime] in
/-- Take an existing pull request out of the draft state. -/
def markReady (number : ℤ) (existing : Json) : PublishM Unit := do
  if let .bool true ← orRaise (existing.get "isDraft") then
    let _ ← commandOutput (.prReady number) "Draft PR을 Ready for review로 전환"

omit [Runtime] in
/-- The checks and updates of an existing pull request. -/
def preparePr (manifest : Manifest) (head : Str) (existing : Json) : PublishM (ℤ × Str) := do
  let number ← orRaise (existing.get "number")
  let pr_url ← orRaise (existing.get "url")
  let remote_head ← orRaise (existing.get "headRefOid")
  let .int number := number | throw (.PublishError "기존 PR metadata가 올바르지 않습니다.")
  let .str pr_url := pr_url | throw (.PublishError "기존 PR metadata가 올바르지 않습니다.")
  if !remote_head.isStr head then
    throw (.PublishError "push 이후 PR head SHA가 현재 HEAD와 다릅니다.")
  linkIssue manifest.issue number existing
  markReady number existing
  return (number, pr_url)

/-- `create_or_prepare_pr`. -/
def createOrPreparePr (manifest : Manifest) (branch head : Str) (title : Option Str) :
    PublishM (ℤ × Str) := do
  let _ ← commandOutput (.push branch) "작업 branch push"
  let pr_list ← parsePrList
    (← commandOutput (.prList branch manifest.target_branch) "현재 PR 조회")
  match pr_list with
  | [] => createPr manifest branch head title
  | [existing] => preparePr manifest head existing
  | _ => throw (.PublishError "같은 branch와 base를 가진 open PR이 여러 개입니다.")

/-- The state of the issue. -/
def viewIssue (issue : ℤ) (description : Str) : PublishM Json := do
  let issue_state ← orRaise (Runtime.loads (← commandOutput (.issueView issue) description))
  orRaise (issue_state.get "state")

/-- Look whether the pull request was merged. -/
def verifyMerged (pr_number : ℤ) : PublishM Unit := do
  let pr_state ← orRaise (Runtime.loads (← commandOutput (.prView pr_number) "merge 결과 확인"))
  let state ← orRaise (pr_state.get "state")
  let merged_at ← orRaise (pr_state.get "mergedAt")
  if !state.isStr "MERGED" || !merged_at.truthy then
    throw (.PublishError "PR merge 결과가 MERGED가 아닙니다.")

/-- Close an issue that was found open, and look at it again. -/
def closeIfOpen (issue pr_number : ℤ) (found : Json) : PublishM Json :=
  if found.isStr "OPEN" then do
    let _ ← commandOutput (.issueClose issue pr_number) "Issue 종료"
    viewIssue issue "Issue 종료 재확인"
  else pure found

/-- Look whether the issue is closed in the end. -/
def verifyClosed (issue pr_number : ℤ) : PublishM Unit := do
  let found ← viewIssue issue "Issue 종료 결과 확인"
  let issue_state ← closeIfOpen issue pr_number found
  if !issue_state.isStr "CLOSED" then
    throw (.PublishError ("PR은 merge됐지만 Issue #" ++ Str.ofInt issue ++ "가 닫히지 않았습니다."))

/-- `merge_and_verify`. -/
def mergeAndVerify (manifest : Manifest) (pr_number : ℤ) : PublishM Bool := do
  let _ ← commandOutput (.prChecks pr_number) "PR required checks 대기"
  let _ ← commandOutput (.prMerge pr_number) "PR merge"
  verifyMerged pr_number
  verifyClosed manifest.issue pr_number
  return true

/-- `finalize`. -/
def finalize (plan_path : Str) (merge : Bool) (title : Option Str) :
    PublishM FinalizationResult := do
  let manifest ← loadManifest
  let (branch, head) ← currentBranchAndHead
  assertIssueBranch branch manifest.issue
  assertCleanWorktree
  let _ ← evaluateAndReadEvidence plan_path head
  let (pr_number, pr_url) ← createOrPreparePr manifest branch head title
  if !merge then
    return ⟨.READY_FOR_REVIEW, manifest.issue, branch, pr_number, pr_url, false, none⟩
  let issue_closed ← mergeAndVerify manifest pr_number
  return ⟨.COMPLETED, manifest.issue, branch, pr_number, pr_url, true, some issue_closed⟩

end CoffeeOrder.Publish
