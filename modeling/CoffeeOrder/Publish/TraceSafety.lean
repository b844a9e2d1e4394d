import CoffeeOrder.Publish.Finalize

/-!
# The commands of `finalize` in order

Whatever the runner and the files answer, each command is issued only after the
checks that it relies on.
-/

namespace CoffeeOrder.Publish

open Kit Python

/-- A step in which a command ran to its end. -/
abbrev ran (command : Command) (result : CompletedProcess) : Step Op.Answer :=
  ⟨.run command, .ok result⟩

/-- The step is not a command that raised or exited with anything but zero. -/
def Succeeded : Step Op.Answer → Prop
  | ⟨.run _, .ok result⟩ => result.returncode = 0
  | ⟨.run _, .error _⟩ => False
  | _ => True

variable [Runtime]

/-- What the script has read before it may push. -/
structure Verification where
  manifest : Manifest
  branch : Str
  head : Str
  planText : Str
  branchResult : CompletedProcess
  headResult : CompletedProcess
  statusResult : CompletedProcess
  evaluateResult : CompletedProcess
  evidenceText : Str

/-- The steps in which it was read. -/
def Verification.trace (v : Verification) (plan_path : Str) : Trace :=
  [⟨.resolvePlan, .ok v.manifest.relative_path⟩, ⟨.readPlan, .ok v.planText⟩,
    ran .branchShowCurrent v.branchResult, ran .revParseHead v.headResult,
    ran .statusPorcelain v.statusResult, ran (.evaluate plan_path) v.evaluateResult,
    ⟨.readEvidence, .ok v.evidenceText⟩]

/-- What was read allows to push: the manifest's issue is that of the branch, the
worktree is clean, and the evidence passes for the HEAD that was read. -/
structure Verification.Valid (v : Verification) : Prop where
  manifest_read : ∃ payload, Runtime.loads v.planText = .ok payload ∧
    payload.item "issue" = .ok (.int v.manifest.issue) ∧
    payload.item "targetBranch" = .ok (.str v.manifest.target_branch)
  branch_read : v.branchResult.stdout.strip = v.branch
  head_read : v.headResult.stdout.strip = v.head
  head_sha : isHeadSha v.head = true
  branch_issue : ∃ digits, branchIssue v.branch = some digits ∧
    intOfDigits digits = .ok v.manifest.issue
  clean : v.statusResult.stdout.strip = []
  evidence_read : ∃ evidence, Runtime.loads v.evidenceText = .ok evidence ∧
    evidence.get "state" = .ok (.str "PASS") ∧
    evidence.get "candidateHeadSha" = .ok (.str v.head)

/-- The steps so far are those that a push of the branch relies on. -/
def PushAllowed (plan_path branch : Str) (trace : Trace) : Prop :=
  ∃ v : Verification, v.Valid ∧ v.branch = branch ∧ trace = v.trace plan_path

/-- The updates of an existing pull request. -/
def UpdatesPr (number : ℤ) (step : Step Op.Answer) : Prop :=
  (∃ body, step.op = .run (.prEdit number body)) ∨ step.op = .run (.prReady number)

/-- How the number of the pull request was found, after the listed answer. -/
inductive FoundPr (v : Verification) (listed : CompletedProcess) (number : ℤ) : Trace → Prop
  | created {title body result digits}
      (none_open : Runtime.loads (listed.stdout.strip.orElse "[]") = .ok (.arr []))
      (url_number : pullNumber result.stdout.strip = some digits)
      (number_eq : intOfDigits digits = .ok number) :
      FoundPr v listed number [ran (.prCreate v.manifest.target_branch v.branch title body) result]
  | existing {item} {steps : Trace}
      (only_open : Runtime.loads (listed.stdout.strip.orElse "[]") = .ok (.arr [item]))
      (number_eq : item.get "number" = .ok (.int number))
      (head_eq : item.get "headRefOid" = .ok (.str v.head))
      (updates : ∀ step ∈ steps, UpdatesPr number step) :
      FoundPr v listed number steps

/-- The steps so far are those that a merge relies on: the verification, the push, the
list of open pull requests, the creation or the updates, and the checks. -/
def MergeAllowed (plan_path : Str) (merge : Bool) (number : ℤ) (trace : Trace) : Prop :=
  merge = true ∧ ∃ (v : Verification) (pushed listed checked : CompletedProcess) (steps : Trace),
    v.Valid ∧ FoundPr v listed number steps ∧
    trace = v.trace plan_path ++ [ran (.push v.branch) pushed,
      ran (.prList v.branch v.manifest.target_branch) listed] ++ steps ++
        [ran (.prChecks number) checked]

/-- The steps so far are those that the creation of a pull request relies on: the
verification of the branch, its push, and a list of open pull requests that is empty. -/
def CreateAllowed (plan_path base branch : Str) (trace : Trace) : Prop :=
  ∃ (v : Verification) (pushed listed : CompletedProcess), v.Valid ∧ v.branch = branch ∧
    v.manifest.target_branch = base ∧
    Runtime.loads (listed.stdout.strip.orElse "[]") = .ok (.arr []) ∧
    trace = v.trace plan_path ++ [ran (.push branch) pushed, ran (.prList branch base) listed]

/-- The answer of a step, if its command is of the kind. -/
def resultOf (kind : Command → Bool) : Step Op.Answer → Option CompletedProcess
  | ⟨.run command, .ok result⟩ => if kind command then some result else none
  | _ => none

/-- The answer of the last command of a kind. -/
def lastResult (kind : Command → Bool) (trace : Trace) : Option CompletedProcess :=
  trace.reverse.findSome? (resultOf kind)

omit [Runtime] in
/-- The last result of a kind is the last command if it is of that kind. -/
@[simp] theorem lastResult_snoc (kind : Command → Bool) (trace : Trace) (command : Command)
    (result : CompletedProcess) : lastResult kind (trace ++ [ran command result]) =
      if kind command then some result else lastResult kind trace := by
  rw [lastResult, List.reverse_append, List.reverse_singleton, List.singleton_append]
  by_cases hkind : kind command
  · simp [resultOf, hkind]
  · simp [resultOf, hkind, lastResult]

/-- The last look at the pull request found it merged. -/
def SeenMerged (trace : Trace) : Prop :=
  ∃ viewed state merged_at,
    lastResult (fun | .prView _ => true | _ => false) trace = some viewed ∧
    Runtime.loads viewed.stdout.strip = .ok state ∧ state.get "state" = .ok (.str "MERGED") ∧
    state.get "mergedAt" = .ok merged_at ∧ merged_at.truthy = true

/-- The last look at the issue found it closed. -/
def SeenClosed (trace : Trace) : Prop :=
  ∃ viewed state, lastResult (fun | .issueView _ => true | _ => false) trace = some viewed ∧
    Runtime.loads viewed.stdout.strip = .ok state ∧ state.get "state" = .ok (.str "CLOSED")

/-- The merge that was seen last stays so until the pull request is viewed again. -/
theorem SeenMerged.snoc {trace : Trace} {command : Command} {result : CompletedProcess}
    (h : SeenMerged trace) (hcommand : ∀ number, command ≠ .prView number) :
    SeenMerged (trace ++ [ran command result]) := by
  obtain ⟨viewed, state, merged_at, hlast, hrest⟩ := h
  refine ⟨viewed, state, merged_at, ?_, hrest⟩
  rw [lastResult_snoc, hlast]
  cases command with
  | prView number => exact absurd rfl (hcommand number)
  | _ => rfl

/-- The step does not change the remote branch or the pull request. -/
def OnlyLooks (step : Step Op.Answer) : Prop :=
  (∃ number, step.op = .run (.prView number)) ∨ (∃ issue, step.op = .run (.issueView issue)) ∨
    ∃ issue number, step.op = .run (.issueClose issue number)

/-- Every command so far exited with zero. -/
def AllSucceeded (trace : Trace) : Prop := ∀ step ∈ trace, Succeeded step

/-- When a command may be issued. -/
def Allowed (plan_path : Str) (merge : Bool) (trace : Trace) : Op → Prop
  | .run command => AllSucceeded trace ∧ match command with
    | .push branch => PushAllowed plan_path branch trace
    | .prCreate base branch _ _ => CreateAllowed plan_path base branch trace
    | .prMerge number => MergeAllowed plan_path merge number trace
    | _ => True
  | _ => True

section Functions

variable {plan_path : Str} {merge : Bool} {pre : Trace}

omit [Runtime] in
/-- A command that exits with zero keeps a run in which all have. -/
theorem AllSucceeded.snoc {command : Command} {result : CompletedProcess} (h : AllSucceeded pre)
    (hzero : result.returncode = 0) : AllSucceeded (pre ++ [ran command result]) := by
  intro step hstep
  rcases List.mem_append.mp hstep with hold | hnew
  · exact h step hold
  · obtain rfl := List.mem_singleton.mp hnew
    exact hzero

omit [Runtime] in
/-- Reading the evidence is no command. -/
theorem AllSucceeded.read {text : Except Exc Str} (h : AllSucceeded pre) :
    AllSucceeded (pre ++ [⟨.readEvidence, text⟩]) := by
  intro step hstep
  rcases List.mem_append.mp hstep with hold | hnew
  · exact h step hold
  · obtain rfl := List.mem_singleton.mp hnew
    trivial

/-- A given value is safe if what follows is. -/
@[simp] theorem orRaise_safe {α : Type} {x : Except Exc α} {Post : Trace → α → Prop} :
    (orRaise x).Safe (Allowed plan_path merge) (Script.onOk Post) pre ↔
      ∀ a, x = .ok a → Post pre a := by
  cases x with
  | error e => exact iff_of_true Script.onOk_error fun a ha => nomatch ha
  | ok a => exact Script.onOk_ok.trans ⟨fun h _ ha => Except.ok.inj ha ▸ h, fun h => h a rfl⟩

/-- A command that does not exit with zero raises. -/
theorem commandOutput_safe {command : Command} {description : Str} {Post : Trace → Str → Prop}
    (hallowed : Allowed plan_path merge pre (.run command))
    (hpost : ∀ result, AllSucceeded (pre ++ [ran command result]) →
      Post (pre ++ [ran command result]) result.stdout.strip) :
    (commandOutput command description).Safe (Allowed plan_path merge) (Script.onOk Post) pre := by
  refine Script.safe_bind_onOk.mpr
    ⟨hallowed, fun answer => orRaise_safe.mpr fun result hresult => ?_⟩
  subst hresult
  by_cases hzero : result.returncode = 0
  · simpa [hzero] using hpost result (hallowed.1.snoc hzero)
  · simp [hzero]

/-- `load_manifest` reads the plan and takes the issue and the branch from it. -/
theorem loadManifest_safe {Post : Trace → Manifest → Prop}
    (hpost : ∀ manifest planText payload, Runtime.loads planText = .ok payload →
      payload.item "issue" = .ok (.int manifest.issue) →
      payload.item "targetBranch" = .ok (.str manifest.target_branch) →
      Post (pre ++ [⟨.resolvePlan, .ok manifest.relative_path⟩, ⟨.readPlan, .ok planText⟩])
        manifest) :
    loadManifest.Safe (Allowed plan_path merge) (Script.onOk Post) pre := by
  refine Script.safe_bind_onOk.mpr (Script.safe_tryCatch_onOk ?_ fun e => ?_)
  · refine Script.safe_bind_onOk.mpr ⟨trivial, fun resolved => orRaise_safe.mpr ?_⟩
    rintro relative_path rfl
    refine Script.safe_bind_onOk.mpr ⟨trivial, fun read => orRaise_safe.mpr ?_⟩
    rintro planText rfl
    refine Script.safe_bind_onOk.mpr (orRaise_safe.mpr fun payload hpayload => ?_)
    refine Script.safe_bind_onOk.mpr (orRaise_safe.mpr fun issue hissue => ?_)
    refine Script.safe_bind_onOk.mpr (orRaise_safe.mpr fun target hbranch => ?_)
    refine Script.safe_bind_onOk.mpr (orRaise_safe.mpr fun objective _ => ?_)
    refine Script.onOk_ok.mpr ?_
    cases issue with
    | int issue =>
      by_cases hpos : issue < 1
      · simp [hpos]
      cases target with
      | str target =>
        by_cases htarget : target = []
        · simp [hpos, htarget]
        cases objective with
        | str objective =>
          by_cases hobjective : objective = []
          · simp [hpos, htarget, hobjective]
          simpa [hpos, htarget, hobjective] using
            hpost ⟨issue, target, objective, relative_path⟩ planText payload hpayload hissue hbranch
        | _ => simp [hpos, htarget]
      | _ => simp [hpos]
    | _ => simp
  · cases e with
    | PublishError message => exact ⟨_, rfl⟩
    | raised error =>
      dsimp only
      split
      · exact ⟨_, rfl⟩
      · exact ⟨_, rfl⟩

/-- `current_branch_and_head` asks Git for both. -/
theorem currentBranchAndHead_safe {Post : Trace → Str × Str → Prop} (hpre : AllSucceeded pre)
    (hpost : ∀ branchResult headResult : CompletedProcess,
      let steps := pre ++ [ran .branchShowCurrent branchResult, ran .revParseHead headResult]
      AllSucceeded steps → isHeadSha headResult.stdout.strip = true →
        Post steps (branchResult.stdout.strip, headResult.stdout.strip)) :
    currentBranchAndHead.Safe (Allowed plan_path merge) (Script.onOk Post) pre := by
  refine Script.safe_bind_onOk.mpr (commandOutput_safe ⟨hpre, trivial⟩ fun branchResult h => ?_)
  refine Script.safe_bind_onOk.mpr (commandOutput_safe ⟨h, trivial⟩ fun headResult h => ?_)
  by_cases hbranch : branchResult.stdout.strip = []
  · simp [hbranch]
  cases hhead : isHeadSha headResult.stdout.strip with
  | false => simp [hbranch]
  | true =>
    rw [List.append_assoc] at h
    simpa [hbranch, hhead] using hpost branchResult headResult h hhead

/-- `assert_issue_branch` passes only if the branch carries the issue. -/
theorem assertIssueBranch_safe {branch : Str} {issue : ℤ} {Post : Trace → Unit → Prop}
    (hpost : ∀ digits, branchIssue branch = some digits → intOfDigits digits = .ok issue →
      Post pre ()) :
    (assertIssueBranch branch issue).Safe (Allowed plan_path merge) (Script.onOk Post) pre := by
  rw [assertIssueBranch]
  cases hdigits : branchIssue branch with
  | none => simp
  | some digits =>
    refine Script.safe_bind_onOk.mpr (orRaise_safe.mpr fun n hn => ?_)
    by_cases hissue : n = issue
    · simpa [hissue] using hpost digits hdigits (hissue ▸ hn)
    · simp [hissue]

/-- `assert_clean_worktree` passes only if Git lists no change. -/
theorem assertCleanWorktree_safe {Post : Trace → Unit → Prop} (hpre : AllSucceeded pre)
    (hpost : ∀ result, AllSucceeded (pre ++ [ran .statusPorcelain result]) →
      result.stdout.strip = [] → Post (pre ++ [ran .statusPorcelain result]) ()) :
    assertCleanWorktree.Safe (Allowed plan_path merge) (Script.onOk Post) pre := by
  refine Script.safe_bind_onOk.mpr (commandOutput_safe ⟨hpre, trivial⟩ fun result h => ?_)
  by_cases hclean : result.stdout.strip = []
  · simpa [hclean] using hpost result h hclean
  · simp [hclean]

/-- `evaluate_and_read_evidence` passes only with a `PASS` for this HEAD. -/
theorem evaluateAndReadEvidence_safe {head : Str} {Post : Trace → Json → Prop}
    (hpre : AllSucceeded pre)
    (hpost : ∀ (result : CompletedProcess) (text : Str) (evidence : Json),
      let steps := pre ++ [ran (.evaluate plan_path) result, ⟨.readEvidence, .ok text⟩]
      AllSucceeded steps → Runtime.loads text = .ok evidence →
        evidence.get "state" = .ok (.str "PASS") →
        evidence.get "candidateHeadSha" = .ok (.str head) → Post steps evidence) :
    (evaluateAndReadEvidence plan_path head).Safe (Allowed plan_path merge) (Script.onOk Post)
      pre := by
  refine Script.safe_bind_onOk.mpr (commandOutput_safe ⟨hpre, trivial⟩ fun result h => ?_)
  refine Script.safe_bind_onOk.mpr (Script.safe_tryCatch_onOk ?_ fun e => ?_)
  · refine Script.safe_bind_onOk.mpr ⟨trivial, fun read => orRaise_safe.mpr ?_⟩
    rintro text rfl
    refine orRaise_safe.mpr fun evidence hloads => ?_
    refine Script.safe_bind_onOk.mpr (orRaise_safe.mpr fun state hstate => ?_)
    cases hpass : state.isStr "PASS" with
    | false => simp
    | true =>
      simp only [Bool.not_true, Bool.false_eq_true, if_false]
      refine Script.safe_bind_onOk.mpr (orRaise_safe.mpr fun candidate hcandidate => ?_)
      cases hhead : candidate.isStr head with
      | false => simp
      | true =>
        rw [Json.isStr_iff] at hpass hhead
        subst hpass hhead
        have hsteps : AllSucceeded
            (pre ++ [ran (.evaluate plan_path) result, ⟨.readEvidence, .ok text⟩]) := by
          rw [List.append_cons]
          exact h.read
        simpa [Json.isStr] using hpost result text evidence hsteps hloads hstate hcandidate
  · cases e with
    | PublishError message => exact ⟨_, rfl⟩
    | raised error =>
      dsimp only
      split
      · exact ⟨_, rfl⟩
      · exact ⟨_, rfl⟩

/-- `parse_pr_list` gives the items of a JSON list. -/
theorem parsePrList_safe {raw : Str} {Post : Trace → List Json → Prop}
    (hpost : ∀ items, Runtime.loads (raw.orElse "[]") = .ok (.arr items) → Post pre items) :
    (parsePrList raw).Safe (Allowed plan_path merge) (Script.onOk Post) pre := by
  rw [parsePrList]
  cases hloads : Runtime.loads (raw.orElse "[]") with
  | error e =>
    dsimp only
    split
    · simp
    · simp
  | ok payload =>
    cases payload with
    | arr items =>
      simp only [Script.pure_bind]
      split
      · simp
      · simpa using hpost items hloads
    | _ => simp

/-- A pull request is created where this is allowed, and its number is read from the URL. -/
theorem createPr_safe {manifest : Manifest} {branch head : Str} {title : Option Str}
    {Post : Trace → ℤ × Str → Prop} (hpre : AllSucceeded pre)
    (hcreate : CreateAllowed plan_path manifest.target_branch branch pre)
    (hpost : ∀ title body result digits number,
      let steps := pre ++ [ran (.prCreate manifest.target_branch branch title body) result]
      AllSucceeded steps → pullNumber result.stdout.strip = some digits →
        intOfDigits digits = .ok number → Post steps (number, result.stdout.strip)) :
    (createPr manifest branch head title).Safe (Allowed plan_path merge)
      (Script.onOk Post) pre := by
  refine Script.safe_bind_onOk.mpr (commandOutput_safe ⟨hpre, hcreate⟩ fun result h => ?_)
  cases hdigits : pullNumber result.stdout.strip with
  | none => simp
  | some digits =>
    refine Script.safe_bind_onOk.mpr (orRaise_safe.mpr fun number hnumber => ?_)
    simpa using hpost _ _ result digits number h hdigits hnumber

/-- Linking the issue edits at most this pull request. -/
theorem linkIssue_safe {issue number : ℤ} {existing : Json} {Post : Trace → Unit → Prop}
    (hpre : AllSucceeded pre)
    (hpost : ∀ steps : Trace, AllSucceeded (pre ++ steps) →
      (∀ step ∈ steps, UpdatesPr number step) → Post (pre ++ steps) ()) :
    (linkIssue issue number existing).Safe (Allowed plan_path merge) (Script.onOk Post) pre := by
  refine Script.safe_bind_onOk.mpr (orRaise_safe.mpr fun body _ => ?_)
  refine Script.safe_bind_onOk.mpr (orRaise_safe.mpr fun updated _ => ?_)
  cases updated with
  | none => simpa [hpre] using hpost []
  | some updated =>
    refine Script.safe_bind_onOk.mpr (commandOutput_safe ⟨hpre, trivial⟩ fun result h => ?_)
    simpa [h, UpdatesPr] using hpost [ran (.prEdit number updated) result]

/-- Marking as ready changes at most this pull request. -/
theorem markReady_safe {number : ℤ} {existing : Json} {Post : Trace → Unit → Prop}
    (hpre : AllSucceeded pre)
    (hpost : ∀ steps : Trace, AllSucceeded (pre ++ steps) →
      (∀ step ∈ steps, UpdatesPr number step) → Post (pre ++ steps) ()) :
    (markReady number existing).Safe (Allowed plan_path merge) (Script.onOk Post) pre := by
  refine Script.safe_bind_onOk.mpr (orRaise_safe.mpr fun draft _ => ?_)
  split
  · refine Script.safe_bind_onOk.mpr (commandOutput_safe ⟨hpre, trivial⟩ fun result h => ?_)
    simpa [h, UpdatesPr] using hpost [ran (.prReady number) result]
  · simpa [hpre] using hpost []

/-- An existing pull request is reused only if its HEAD is this one. -/
theorem preparePr_safe {manifest : Manifest} {head : Str} {existing : Json}
    {Post : Trace → ℤ × Str → Prop} (hpre : AllSucceeded pre)
    (hpost : ∀ number url (steps : Trace), AllSucceeded (pre ++ steps) →
      existing.get "number" = .ok (.int number) → existing.get "headRefOid" = .ok (.str head) →
      (∀ step ∈ steps, UpdatesPr number step) → Post (pre ++ steps) (number, url)) :
    (preparePr manifest head existing).Safe (Allowed plan_path merge) (Script.onOk Post) pre := by
  refine Script.safe_bind_onOk.mpr (orRaise_safe.mpr fun number hnumber => ?_)
  refine Script.safe_bind_onOk.mpr (orRaise_safe.mpr fun url _ => ?_)
  refine Script.safe_bind_onOk.mpr (orRaise_safe.mpr fun remote_head hremote => ?_)
  cases number with
  | int number =>
    cases url with
    | str url =>
      cases hhead : remote_head.isStr head with
      | false => simp
      | true =>
        rw [Json.isStr_iff] at hhead
        subst hhead
        simp only [Bool.not_true, Bool.false_eq_true, if_false]
        refine Script.safe_bind_onOk.mpr (linkIssue_safe hpre fun edits hedits heditsOk => ?_)
        refine Script.safe_bind_onOk.mpr (markReady_safe hedits fun marks hmarks hmarksOk => ?_)
        rw [List.append_assoc] at hmarks ⊢
        refine Script.onOk_ok.mpr (hpost number url (edits ++ marks) hmarks hnumber hremote ?_)
        exact fun step hstep => (List.mem_append.mp hstep).elim (heditsOk step) (hmarksOk step)
    | _ => simp
  | _ => simp

/-- `create_or_prepare_pr` pushes, lists the open pull requests and finds or creates the one. -/
theorem createOrPreparePr_safe {v : Verification} {title : Option Str}
    {Post : Trace → ℤ × Str → Prop} (hv : v.Valid) (hpre : AllSucceeded (v.trace plan_path))
    (hpost : ∀ pushed listed (steps : Trace) number url, FoundPr v listed number steps →
      let all := v.trace plan_path ++ [ran (.push v.branch) pushed,
        ran (.prList v.branch v.manifest.target_branch) listed] ++ steps
      AllSucceeded all → Post all (number, url)) :
    (createOrPreparePr v.manifest v.branch v.head title).Safe (Allowed plan_path merge)
      (Script.onOk Post) (v.trace plan_path) := by
  refine Script.safe_bind_onOk.mpr
    (commandOutput_safe ⟨hpre, v, hv, rfl, rfl⟩ fun pushed hpushed => ?_)
  refine Script.safe_bind_onOk.mpr
    (commandOutput_safe ⟨hpushed, trivial⟩ fun listed hlisted => ?_)
  refine Script.safe_bind_onOk.mpr (parsePrList_safe fun items hitems => ?_)
  rw [List.append_assoc] at hlisted ⊢
  match items with
  | [] =>
    have hcreate : CreateAllowed plan_path v.manifest.target_branch v.branch (v.trace plan_path ++
        ([ran (.push v.branch) pushed] ++
          [ran (.prList v.branch v.manifest.target_branch) listed])) :=
      ⟨v, pushed, listed, hv, rfl, rfl, hitems, rfl⟩
    refine createPr_safe hlisted hcreate fun title body result digits number h hdigits hnumber => ?_
    exact hpost pushed listed _ number _ (.created hitems hdigits hnumber) h
  | [existing] =>
    refine preparePr_safe hlisted fun number url steps h hnumber hhead hupdates => ?_
    exact hpost pushed listed steps number url (.existing hitems hnumber hhead hupdates) h
  | _ :: _ :: _ => exact Script.onOk_error

/-- The merge is verified only if the pull request is seen as merged. -/
theorem verifyMerged_safe {number : ℤ} {Post : Trace → Unit → Prop} (hpre : AllSucceeded pre)
    (hpost : ∀ viewed, let all := pre ++ [ran (.prView number) viewed]
      AllSucceeded all → SeenMerged all → Post all ()) :
    (verifyMerged number).Safe (Allowed plan_path merge) (Script.onOk Post) pre := by
  refine Script.safe_bind_onOk.mpr (commandOutput_safe ⟨hpre, trivial⟩ fun viewed h => ?_)
  refine Script.safe_bind_onOk.mpr (orRaise_safe.mpr fun pr_state hloads => ?_)
  refine Script.safe_bind_onOk.mpr (orRaise_safe.mpr fun state hstate => ?_)
  refine Script.safe_bind_onOk.mpr (orRaise_safe.mpr fun merged_at hmergedAt => ?_)
  by_cases hmerged : state.isStr "MERGED" = true ∧ merged_at.truthy = true
  · obtain ⟨hstr, htruthy⟩ := hmerged
    rw [Json.isStr_iff] at hstr
    subst hstr
    simpa [Json.isStr, htruthy] using
      hpost viewed h ⟨viewed, pr_state, merged_at, by simp, hloads, hstate, hmergedAt, htruthy⟩
  · rw [not_and_or, Bool.not_eq_true, Bool.not_eq_true] at hmerged
    rcases hmerged with hmerged | hmerged <;> simp [hmerged]

/-- The state of the issue is what was viewed last. -/
theorem viewIssue_safe {issue : ℤ} {description : Str} {Post : Trace → Json → Prop}
    (hpre : AllSucceeded pre)
    (hpost : ∀ viewed state, let all := pre ++ [ran (.issueView issue) viewed]
      AllSucceeded all → (state.isStr "CLOSED" = true → SeenClosed all) → Post all state) :
    (viewIssue issue description).Safe (Allowed plan_path merge) (Script.onOk Post) pre := by
  refine Script.safe_bind_onOk.mpr (commandOutput_safe ⟨hpre, trivial⟩ fun viewed h => ?_)
  refine Script.safe_bind_onOk.mpr (orRaise_safe.mpr fun issue_state hloads => ?_)
  refine orRaise_safe.mpr fun state hstate => hpost viewed state h fun hclosed => ?_
  rw [Json.isStr_iff] at hclosed
  exact ⟨viewed, issue_state, by simp, hloads, hclosed ▸ hstate⟩

/-- An issue that is open is closed and viewed again. -/
theorem closeIfOpen_safe {issue number : ℤ} {found : Json} {Post : Trace → Json → Prop}
    (hpre : AllSucceeded pre) (hmerged : SeenMerged pre)
    (hclosed : found.isStr "CLOSED" = true → SeenClosed pre)
    (hpost : ∀ (steps : Trace) state, (∀ step ∈ steps, OnlyLooks step) →
      AllSucceeded (pre ++ steps) → SeenMerged (pre ++ steps) →
      (state.isStr "CLOSED" = true → SeenClosed (pre ++ steps)) → Post (pre ++ steps) state) :
    (closeIfOpen issue number found).Safe (Allowed plan_path merge) (Script.onOk Post) pre := by
  rw [closeIfOpen]
  cases hopen : found.isStr "OPEN" with
  | false => simpa [hpre, hmerged] using hpost [] found (by simp) (by simpa) (by simpa) (by simpa)
  | true =>
    refine Script.safe_bind_onOk.mpr (commandOutput_safe ⟨hpre, trivial⟩ fun closed h => ?_)
    refine viewIssue_safe h fun viewed state h hseen => ?_
    have hmerged' : SeenMerged (pre ++ [ran (.issueClose issue number) closed] ++
        [ran (.issueView issue) viewed]) := (hmerged.snoc (by simp)).snoc (by simp)
    rw [List.append_assoc] at h hseen hmerged' ⊢
    exact hpost _ state (by simp [OnlyLooks]) h hmerged' hseen

/-- The publication is complete only if the issue is seen as closed. -/
theorem verifyClosed_safe {issue number : ℤ} {Post : Trace → Unit → Prop}
    (hpre : AllSucceeded pre) (hmerged : SeenMerged pre)
    (hpost : ∀ steps : Trace, (∀ step ∈ steps, OnlyLooks step) → AllSucceeded (pre ++ steps) →
      SeenMerged (pre ++ steps) → SeenClosed (pre ++ steps) → Post (pre ++ steps) ()) :
    (verifyClosed issue number).Safe (Allowed plan_path merge) (Script.onOk Post) pre := by
  refine Script.safe_bind_onOk.mpr (viewIssue_safe hpre fun viewed found h hseen => ?_)
  refine Script.safe_bind_onOk.mpr
    (closeIfOpen_safe h (hmerged.snoc (by simp)) hseen
      fun steps state hlooks h hmerged hclosed => ?_)
  simp only [List.append_assoc] at h hmerged hclosed ⊢
  cases hstate : state.isStr "CLOSED" with
  | false => simp
  | true =>
    refine Script.onOk_ok.mpr (hpost _ ?_ h hmerged (hclosed hstate))
    simpa [OnlyLooks] using hlooks

/-- `merge_and_verify` waits for the checks, merges, and then only looks. -/
theorem mergeAndVerify_safe {manifest : Manifest} {number : ℤ} {Post : Trace → Bool → Prop}
    (hpre : AllSucceeded pre)
    (hmerge : ∀ checked,
      MergeAllowed plan_path merge number (pre ++ [ran (.prChecks number) checked]))
    (hpost : ∀ checked merged (looks : Trace), (∀ step ∈ looks, OnlyLooks step) →
      let all := pre ++ ([ran (.prChecks number) checked, ran (.prMerge number) merged] ++ looks)
      AllSucceeded all → SeenMerged all → SeenClosed all → Post all true) :
    (mergeAndVerify manifest number).Safe (Allowed plan_path merge) (Script.onOk Post) pre := by
  refine Script.safe_bind_onOk.mpr
    (commandOutput_safe ⟨hpre, trivial⟩ fun checked hchecked => ?_)
  refine Script.safe_bind_onOk.mpr
    (commandOutput_safe ⟨hchecked, hmerge checked⟩ fun merged h => ?_)
  refine Script.safe_bind_onOk.mpr (verifyMerged_safe h fun viewed h hmerged => ?_)
  refine Script.safe_bind_onOk.mpr
    (verifyClosed_safe h hmerged fun steps hlooks h hmerged hclosed => ?_)
  simp only [List.append_assoc] at h hmerged hclosed ⊢
  refine Script.onOk_ok.mpr
    (hpost checked merged ([ran (.prView number) viewed] ++ steps) ?_ h hmerged hclosed)
  simpa [OnlyLooks] using hlooks

/-- The steps of a `finalize` that returns, and its result. -/
inductive Finalized (plan_path : Str) (merge : Bool) : Trace → FinalizationResult → Prop
  | ready {v : Verification} {pushed listed : CompletedProcess} {steps trace : Trace} {number : ℤ}
      {url : Str} (valid : v.Valid) (found : FoundPr v listed number steps)
      (unasked : merge = false)
      (trace_eq : trace = v.trace plan_path ++ [ran (.push v.branch) pushed,
        ran (.prList v.branch v.manifest.target_branch) listed] ++ steps)
      (succeeded : AllSucceeded trace) :
      Finalized plan_path merge trace
        ⟨.READY_FOR_REVIEW, v.manifest.issue, v.branch, number, url, false, none⟩
  | completed {v : Verification} {pushed listed checked merged : CompletedProcess}
      {steps looks trace : Trace} {number : ℤ} {url : Str} (valid : v.Valid)
      (found : FoundPr v listed number steps) (asked : merge = true)
      (only_looks : ∀ step ∈ looks, OnlyLooks step)
      (trace_eq : trace = v.trace plan_path ++ [ran (.push v.branch) pushed,
        ran (.prList v.branch v.manifest.target_branch) listed] ++ steps ++
          ([ran (.prChecks number) checked, ran (.prMerge number) merged] ++ looks))
      (succeeded : AllSucceeded trace) (seen_merged : SeenMerged trace)
      (seen_closed : SeenClosed trace) :
      Finalized plan_path merge trace
        ⟨.COMPLETED, v.manifest.issue, v.branch, number, url, true, some true⟩

/-- Each command of `finalize` is issued only when it is allowed. -/
theorem finalize_safe (title : Option Str) :
    (finalize plan_path merge title).Safe (Allowed plan_path merge)
      (Script.onOk (Finalized plan_path merge)) [] := by
  refine Script.safe_bind_onOk.mpr (loadManifest_safe fun manifest planText payload hplan hissue
    htarget => ?_)
  have hread : AllSucceeded ([] ++ [⟨.resolvePlan, .ok manifest.relative_path⟩,
      ⟨.readPlan, .ok planText⟩]) := by simp [AllSucceeded, Succeeded]
  refine Script.safe_bind_onOk.mpr
    (currentBranchAndHead_safe hread fun branchResult headResult hread hsha => ?_)
  refine Script.safe_bind_onOk.mpr (assertIssueBranch_safe fun digits hdigits hnumber => ?_)
  refine Script.safe_bind_onOk.mpr
    (assertCleanWorktree_safe hread fun statusResult hread hclean => ?_)
  refine Script.safe_bind_onOk.mpr (evaluateAndReadEvidence_safe hread
    fun evaluateResult evidenceText evidence hread hevidence hpass hhead => ?_)
  let v : Verification := ⟨manifest, branchResult.stdout.strip, headResult.stdout.strip, planText,
    branchResult, headResult, statusResult, evaluateResult, evidenceText⟩
  have hv : v.Valid :=
    ⟨⟨payload, hplan, hissue, htarget⟩, rfl, rfl, hsha, ⟨digits, hdigits, hnumber⟩,
    hclean, evidence, hevidence, hpass, hhead⟩
  simp only [List.append_assoc, List.nil_append] at hread ⊢
  refine Script.safe_bind_onOk.mpr (createOrPreparePr_safe (v := v) hv hread
    fun pushed listed steps number url hfound hpublished => ?_)
  cases merge with
  | false => exact Script.onOk_ok.mpr (.ready hv hfound rfl rfl hpublished)
  | true =>
    refine Script.safe_bind_onOk.mpr (mergeAndVerify_safe hpublished (fun checked =>
      ⟨rfl, v, pushed, listed, checked, steps, hv, hfound, rfl⟩)
      fun checked merged looks hlooks h hmerged hclosed => ?_)
    exact Script.onOk_ok.mpr (.completed hv hfound rfl hlooks rfl h hmerged hclosed)

end Functions

section Commands

/-- `git push` is what `push` runs, and nothing else. -/
theorem argv_push {root : Str} {command : Command}
    (h : (command.argv root).take 2 = ["git", "push"]) : ∃ branch, command = .push branch := by
  have hscript : root ++ "/scripts/agent-harness.py" ≠ ("push" : Str) := fun h => by
    have hlength := congrArg List.length h
    simp only [List.length_append] at hlength
    have : ("/scripts/agent-harness.py" : Str).length = 25 := by decide
    have : ("push" : Str).length = 4 := by decide
    omega
  cases command with
  | push branch => exact ⟨branch, rfl⟩
  | evaluate plan => exact absurd (List.cons.inj (List.cons.inj h).2).1 hscript
  | branchShowCurrent | revParseHead | statusPorcelain =>
    exact absurd (List.cons.inj (List.cons.inj h).2).1 (by decide)
  | _ => exact absurd (List.cons.inj h).1 (by decide)

/-- `gh pr merge` is what `prMerge` runs, and nothing else. -/
theorem argv_merge {root : Str} {command : Command}
    (h : (command.argv root).take 3 = ["gh", "pr", "merge"]) :
    ∃ number, command = .prMerge number := by
  cases command with
  | prMerge number => exact ⟨number, rfl⟩
  | evaluate plan =>
    exact absurd (List.cons.inj (List.cons.inj (List.cons.inj h).2).2).1 (by decide)
  | branchShowCurrent | revParseHead | statusPorcelain | push =>
    exact absurd (List.cons.inj h).1 (by decide)
  | issueView | issueClose => exact absurd (List.cons.inj (List.cons.inj h).2).1 (by decide)
  | _ => exact absurd (List.cons.inj (List.cons.inj (List.cons.inj h).2).2).1 (by decide)

end Commands

/-- **Command-trace safety.** In whatever world `finalize` runs, a command is issued
only after commands that exited with zero; `git push` only after the verification of
its branch; `gh pr merge` only if a merge was asked for, after the push and the
checks of the pull request found or created for the branch; and `COMPLETED` is
returned only if the pull request was last seen merged and the issue closed. -/
theorem command_trace_safety (root plan_path : Str) (merge : Bool) (title : Option Str)
    {World : Type} (world : World → (op : Op) → Op.Answer op × World) (start : World) :
    let run := (finalize plan_path merge title).exec world start
    (∀ before_ command answer after_, run.1 = before_ ++ ⟨.run command, answer⟩ :: after_ →
      AllSucceeded before_ ∧
      ((command.argv root).take 2 = (["git", "push"] : List Str) →
        ∃ branch, command = .push branch ∧ PushAllowed plan_path branch before_) ∧
      ((command.argv root).take 3 = (["gh", "pr", "merge"] : List Str) →
        ∃ number, command = .prMerge number ∧ MergeAllowed plan_path merge number before_)) ∧
    ∀ result, run.2.1 = .ok result → result.state = .COMPLETED →
      SeenMerged run.1 ∧ SeenClosed run.1 := by
  intro run
  obtain ⟨hresult, hsteps⟩ := (finalize_safe title).exec world start
  refine ⟨fun before_ command answer after_ hsplit => ?_, fun result hreturned hcompleted => ?_⟩
  · obtain ⟨hsucceeded, hallowed⟩ := hsteps before_ _ after_ hsplit
    refine ⟨hsucceeded, fun hpush => ?_, fun hmerge => ?_⟩
    · obtain ⟨branch, rfl⟩ := argv_push hpush
      exact ⟨branch, rfl, hallowed⟩
    · obtain ⟨number, rfl⟩ := argv_merge hmerge
      exact ⟨number, rfl, hallowed⟩
  · have hfinalized : Finalized plan_path merge run.1 result := hresult result hreturned
    generalize run.1 = trace at hfinalized ⊢
    cases hfinalized with
    | ready => exact nomatch hcompleted
    | completed _ _ _ _ _ _ hmerged hclosed => exact ⟨hmerged, hclosed⟩

end CoffeeOrder.Publish
