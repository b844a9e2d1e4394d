import CoffeeOrder.Kit.Machine
import CoffeeOrder.Publish.TraceSafety

/-!
# What is published while others commit and push

`finalize` reads HEAD once and then works by branch name. Between any two of its
commands others may commit on the local branch and push to the remote one.
-/

namespace CoffeeOrder.Publish

open Kit Python

/-- What others do. -/
inductive Foreign
  /-- A commit on the local branch. -/
  | commit (sha : Str)
  /-- A push of a commit to the remote branch. -/
  | push (sha : Str)
  deriving DecidableEq

/-- Others have moved the local branch. -/
def Foreign.isCommit : Foreign → Bool
  | .commit _ => true
  | .push _ => false

/-- What others have done since the last step, and the next step of `finalize`. -/
structure Turn where
  foreign : List Foreign
  step : Step Op.Answer

/-- How far `finalize` has come, with the HEAD that it read. -/
inductive Progress
  | unread
  | read (head : Str)
  | pushed (head : Str)
  | merged (head : Str)
  /-- An order of commands that `finalize` never takes. -/
  | stray
  deriving DecidableEq

/-- The branch on both sides, and the pull request. -/
structure Hub where
  localHead : Str
  remoteHead : Str
  /-- The commit that `gh pr merge` has squash-merged. -/
  merged : Option Str
  progress : Progress
  deriving DecidableEq

/-- The state when `finalize` starts. -/
def Hub.start (localHead remoteHead : Str) : Hub := ⟨localHead, remoteHead, none, .unread⟩

/-- The head of the pull request, which follows the remote branch until the merge. -/
def Hub.prHead (hub : Hub) : Str := hub.merged.getD hub.remoteHead

/-- Others move a branch. -/
def Hub.disturb (hub : Hub) : Foreign → Hub
  | .commit sha => { hub with localHead := sha }
  | .push sha => { hub with remoteHead := sha }

/-- A command that exited with zero, and its output. -/
def succeeded : Step Op.Answer → Option (Command × CompletedProcess)
  | ⟨.run command, .ok result⟩ => if result.returncode = 0 then some (command, result) else none
  | _ => none

/-- How far `finalize` has come after a step. -/
def Progress.after (progress : Progress) (step : Step Op.Answer) : Progress :=
  match succeeded step, progress with
  | some (.revParseHead, result), .unread => .read result.stdout.strip
  | some (.revParseHead, _), _ => .stray
  | some (.push _, _), .read head => .pushed head
  | some (.push _, _), _ => .stray
  | some (.prMerge _, _), .pushed head => .merged head
  | some (.prMerge _, _), _ => .stray
  | _, progress => progress

section Hub

variable [Runtime]

/-- The heads in the answer of `gh pr list` are those of the branch. -/
def Hub.lists (hub : Hub) (raw : Str) : Bool :=
  match Runtime.loads (raw.orElse "[]") with
  | .ok (.arr items) => items.all fun item =>
    match item.get "headRefOid" with
    | .ok (.str sha) => sha = hub.prHead
    | _ => true
  | _ => true

/-- The effect of a step; none if Git and GitHub do not answer so. -/
def Hub.answer (hub : Hub) (step : Step Op.Answer) : Option Hub :=
  match succeeded step with
  | some (.revParseHead, result) => if result.stdout.strip = hub.localHead then some hub else none
  | some (.push _, _) => some { hub with remoteHead := hub.localHead }
  | some (.prList _ _, result) => if hub.lists result.stdout.strip then some hub else none
  | some (.prMerge _, _) => some { hub with merged := some hub.prHead }
  | _ => some hub

/-- One turn: what others did, then a step of `finalize`. -/
def Hub.step (hub : Hub) (turn : Turn) : Option Hub :=
  ((turn.foreign.foldl Hub.disturb hub).answer turn.step).map fun hub' =>
    { hub' with progress := hub.progress.after turn.step }

/-- Nobody commits between the reading of HEAD and the push, and nobody else pushes
between the push and the merge. -/
def Hub.Undisturbed (hub : Hub) (turn : Turn) : Prop :=
  match hub.progress with
  | .read _ => ∀ f ∈ turn.foreign, f.isCommit = false
  | .pushed _ => ∀ f ∈ turn.foreign, f.isCommit = true
  | _ => True

instance (hub : Hub) (turn : Turn) : Decidable (hub.Undisturbed turn) := by
  unfold Hub.Undisturbed
  split <;> infer_instance

/-- The commit whose evidence was accepted. -/
def acceptedHead (trace : Trace) : Option Str :=
  trace.findSome? fun
    | ⟨.readEvidence, .ok text⟩ =>
      match (Runtime.loads text).bind fun evidence => evidence.get "candidateHeadSha" with
      | .ok (.str sha) => some sha
      | _ => none
    | _ => none

/-- The pull request shows the accepted commit, and that is what was merged. -/
structure Hub.PublishedAsEvaluated (hub : Hub) (trace : Trace) (result : FinalizationResult) :
    Prop where
  pr_head : some hub.prHead = acceptedHead trace
  merged_head : result.state = .COMPLETED → hub.merged = acceptedHead trace

/-- What is known of the branches, given how far `finalize` has come. -/
def Hub.Sound (hub : Hub) : Prop :=
  match hub.progress with
  | .unread => hub.merged = none
  | .read head => hub.localHead = head ∧ hub.merged = none
  | .pushed head => hub.remoteHead = head ∧ hub.merged = none
  | .merged head => hub.merged = some head
  | .stray => True

omit [Runtime] in
/-- Others never merge; they move only what they commit or push to. -/
theorem Hub.disturb_spec (hub : Hub) (foreign : List Foreign) :
    let hub' := foreign.foldl Hub.disturb hub
    hub'.merged = hub.merged ∧
      ((∀ f ∈ foreign, f.isCommit = false) → hub'.localHead = hub.localHead) ∧
      ((∀ f ∈ foreign, f.isCommit = true) → hub'.remoteHead = hub.remoteHead) := by
  induction foreign generalizing hub with
  | nil => simp
  | cons f foreign ih =>
    obtain ⟨hmerged, hlocal, hremote⟩ := ih (hub.disturb f)
    cases f with
    | commit sha => simpa [Foreign.isCommit, Hub.disturb] using ⟨hmerged, hremote⟩
    | push sha => simpa [Foreign.isCommit, Hub.disturb] using ⟨hmerged, hlocal⟩

omit [Runtime] in
/-- What others do between two steps keeps what is known. -/
theorem Hub.Sound.disturb {hub : Hub} {turn : Turn} (h : hub.Sound)
    (hundisturbed : hub.Undisturbed turn) :
    ({ turn.foreign.foldl Hub.disturb hub with progress := hub.progress } : Hub).Sound := by
  obtain ⟨hmerged, hlocal, hremote⟩ := hub.disturb_spec turn.foreign
  cases hprogress : hub.progress with
  | unread | merged => simpa [Hub.Sound, hprogress, hmerged] using h
  | stray => trivial
  | read head =>
    simp only [Hub.Sound, Hub.Undisturbed, hprogress] at h hundisturbed ⊢
    exact ⟨(hlocal hundisturbed).trans h.1, hmerged.trans h.2⟩
  | pushed head =>
    simp only [Hub.Sound, Hub.Undisturbed, hprogress] at h hundisturbed ⊢
    exact ⟨(hremote hundisturbed).trans h.1, hmerged.trans h.2⟩

/-- An undisturbed turn keeps what is known. -/
theorem Hub.Sound.step {hub hub' : Hub} {turn : Turn} (h : hub.Sound)
    (hundisturbed : hub.Undisturbed turn) (hstep : hub.step turn = some hub') : hub'.Sound := by
  obtain ⟨answered, hanswer, rfl⟩ := Option.map_eq_some_iff.mp hstep
  have hknown := h.disturb hundisturbed
  clear h hundisturbed hstep
  generalize turn.foreign.foldl Hub.disturb hub = found at hanswer hknown
  generalize hub.progress = progress at hknown
  rcases hsucceeded : succeeded turn.step with _ | ⟨command, result⟩
  · obtain rfl : found = answered := by simpa [Hub.answer, hsucceeded] using hanswer
    simpa [Progress.after, hsucceeded] using hknown
  cases command with
  | revParseHead =>
    obtain ⟨hhead, rfl⟩ : result.stdout.strip = found.localHead ∧ found = answered := by
      simpa [Hub.answer, hsucceeded] using hanswer
    cases progress <;> simp_all [Hub.Sound, Progress.after]
  | push branch =>
    obtain rfl : { found with remoteHead := found.localHead } = answered := by
      simpa [Hub.answer, hsucceeded] using hanswer
    cases progress <;> simp_all [Hub.Sound, Progress.after]
  | prMerge number =>
    obtain rfl : { found with merged := some found.prHead } = answered := by
      simpa [Hub.answer, hsucceeded] using hanswer
    cases progress <;> simp_all [Hub.Sound, Progress.after, Hub.prHead]
  | prList branch base =>
    obtain ⟨-, rfl⟩ : found.lists result.stdout.strip = true ∧ found = answered := by
      simpa [Hub.answer, hsucceeded] using hanswer
    simpa [Progress.after, hsucceeded] using hknown
  | _ =>
    obtain rfl : found = answered := by simpa [Hub.answer, hsucceeded] using hanswer
    simpa [Progress.after, hsucceeded] using hknown

/-- The progress after a trace is the progress that the run has recorded. -/
theorem Hub.progress_runs {hub hub' : Hub} {turns : List Turn}
    (hrun : runs Hub.step hub turns = some hub') :
    hub'.progress = (turns.map Turn.step).foldl Progress.after hub.progress := by
  induction turns generalizing hub with
  | nil =>
    obtain rfl : hub = hub' := by simpa using hrun
    rfl
  | cons turn turns ih =>
    obtain ⟨next, hstep, hrest⟩ := Option.bind_eq_some_iff.mp hrun
    obtain ⟨answered, -, rfl⟩ := Option.map_eq_some_iff.mp hstep
    exact ih hrest

section Progress

variable {progress : Progress} {step : Step Op.Answer} {steps : Trace}

omit [Runtime] in
/-- A command that exits with zero has succeeded. -/
theorem succeeded_ran {command : Command} {result : CompletedProcess}
    (h : result.returncode = 0) : succeeded (ran command result) = some (command, result) :=
  if_pos h

omit [Runtime] in
/-- Only a command succeeds. -/
theorem succeeded_op {command : Command} {result : CompletedProcess}
    (h : succeeded step = some (command, result)) : step.op = .run command := by
  obtain ⟨op, answer⟩ := step
  unfold succeeded at h
  split at h
  · rename_i heq
    obtain ⟨rfl, -⟩ := heq
    split at h
    · obtain ⟨rfl, -⟩ := Prod.mk.inj (Option.some.inj h)
      rfl
    · exact nomatch h
  · exact nomatch h

/-- The step neither reads HEAD nor pushes nor merges. -/
def KeepsProgress (step : Step Op.Answer) : Prop :=
  step.op ≠ .run .revParseHead ∧ (∀ branch, step.op ≠ .run (.push branch)) ∧
    ∀ number, step.op ≠ .run (.prMerge number)

omit [Runtime] in
/-- A step that neither reads HEAD nor pushes nor merges leaves the progress as it is. -/
theorem Progress.after_of_keeps (h : KeepsProgress step) : progress.after step = progress := by
  obtain ⟨hhead, hpush, hmerge⟩ := h
  rcases hsucceeded : succeeded step with _ | ⟨command, result⟩
  · simp [Progress.after, hsucceeded]
  · have hop := succeeded_op hsucceeded
    cases command <;> simp_all [Progress.after]

omit [Runtime] in
/-- Any number of such steps leaves the progress as it is. -/
theorem Progress.foldl_of_keeps (h : ∀ step ∈ steps, KeepsProgress step) :
    steps.foldl Progress.after progress = progress := by
  induction steps with
  | nil => rfl
  | cons step steps ih =>
    rw [List.foldl_cons, Progress.after_of_keeps (h step List.mem_cons_self)]
    exact ih fun step hmem => h step (List.mem_cons_of_mem _ hmem)

omit [Runtime] in
/-- What follows a merge keeps the progress. -/
theorem OnlyLooks.keeps (h : OnlyLooks step) : KeepsProgress step := by
  rcases h with ⟨_, h⟩ | ⟨_, h⟩ | ⟨_, _, h⟩ <;> simp [KeepsProgress, h]

/-- Finding or creating the pull request keeps the progress. -/
theorem FoundPr.keeps {v : Verification} {listed : CompletedProcess} {number : ℤ}
    (h : FoundPr v listed number steps) : ∀ step ∈ steps, KeepsProgress step := by
  cases h with
  | created => simp [KeepsProgress]
  | existing _ _ _ updates =>
    intro step hstep
    rcases updates step hstep with ⟨_, h⟩ | h <;> simp [KeepsProgress, h]

variable {v : Verification} {plan_path : Str}

/-- The steps up to the list of pull requests have pushed the verified HEAD. -/
theorem Verification.progress_pushed {pushed listed : CompletedProcess}
    (hv : v.Valid) (hhead : v.headResult.returncode = 0) (hpushed : pushed.returncode = 0) :
    (v.trace plan_path ++ [ran (.push v.branch) pushed,
      ran (.prList v.branch v.manifest.target_branch) listed]).foldl Progress.after .unread =
        .pushed v.head := by
  have hread : Progress.after .unread (ran .revParseHead v.headResult) = .read v.head := by
    simp [Progress.after, succeeded_ran hhead, hv.head_read]
  have hpush : Progress.after (.read v.head) (ran (.push v.branch) pushed) = .pushed v.head := by
    simp [Progress.after, succeeded_ran hpushed]
  have hkeep : ∀ (p : Progress) (step : Step Op.Answer), KeepsProgress step → p.after step = p :=
    fun p step h => Progress.after_of_keeps h
  simp only [Verification.trace, List.cons_append, List.nil_append, List.foldl_cons,
    List.foldl_nil]
  rw [hkeep _ ⟨.resolvePlan, _⟩ (by simp [KeepsProgress]),
    hkeep _ ⟨.readPlan, _⟩ (by simp [KeepsProgress]),
    hkeep _ (ran .branchShowCurrent _) (by simp [KeepsProgress]), hread,
    hkeep _ (ran .statusPorcelain _) (by simp [KeepsProgress]),
    hkeep _ (ran (.evaluate _) _) (by simp [KeepsProgress]),
    hkeep _ ⟨.readEvidence, _⟩ (by simp [KeepsProgress]), hpush,
    hkeep _ (ran (.prList _ _) _) (by simp [KeepsProgress])]

/-- What a verification accepts is its own HEAD. -/
theorem Verification.acceptedHead_eq (hv : v.Valid) (rest : Trace) :
    acceptedHead (v.trace plan_path ++ rest) = some v.head := by
  obtain ⟨evidence, hloads, -, hhead⟩ := hv.evidence_read
  simp [acceptedHead, Verification.trace, hloads, hhead, Except.bind]

/-- A `finalize` that returns has pushed, or merged, the HEAD whose evidence it accepted. -/
theorem Finalized.foldl_after {merge : Bool} {trace : Trace} {result : FinalizationResult}
    (h : Finalized plan_path merge trace result) :
    ∃ head, acceptedHead trace = some head ∧
      (result.state = .READY_FOR_REVIEW ∧ trace.foldl Progress.after .unread = .pushed head ∨
        trace.foldl Progress.after .unread = .merged head) := by
  cases h with
  | @ready v pushed listed steps _ _ _ hv hfound _ htrace hsucceeded =>
    subst htrace
    have hhead := hsucceeded (ran .revParseHead v.headResult) (by simp [Verification.trace])
    have hpushed := hsucceeded (ran (.push v.branch) pushed) (by simp)
    refine ⟨v.head, by rw [List.append_assoc, Verification.acceptedHead_eq hv], .inl ⟨rfl, ?_⟩⟩
    rw [List.foldl_append, Verification.progress_pushed hv hhead hpushed,
      Progress.foldl_of_keeps hfound.keeps]
  | @completed v pushed listed checked merged steps looks _ number _ hv hfound _ hlooks htrace
      hsucceeded =>
    subst htrace
    have hhead := hsucceeded (ran .revParseHead v.headResult) (by simp [Verification.trace])
    have hpushed := hsucceeded (ran (.push v.branch) pushed) (by simp)
    have hmerged := hsucceeded (ran (.prMerge number) merged) (by simp)
    refine ⟨v.head, by simp only [List.append_assoc, Verification.acceptedHead_eq hv], .inr ?_⟩
    rw [List.foldl_append, List.foldl_append, List.foldl_append,
      Verification.progress_pushed hv hhead hpushed, Progress.foldl_of_keeps hfound.keeps,
      List.foldl_cons, List.foldl_cons, List.foldl_nil]
    have hchecks : Progress.after (.pushed v.head) (ran (.prChecks number) checked) =
        .pushed v.head := Progress.after_of_keeps (by simp [KeepsProgress])
    have hmerge : Progress.after (.pushed v.head) (ran (.prMerge number) merged) =
        .merged v.head := by
      simp [Progress.after, succeeded_ran hmerged]
    rw [hchecks, hmerge, Progress.foldl_of_keeps fun step hstep => (hlooks step hstep).keeps]

end Progress

/-- **What is published is what was evaluated**, in every interleaving in which nobody
commits between the reading of HEAD and the push, and nobody else pushes between the
push and the merge. -/
theorem published_as_evaluated (plan_path : Str) (merge : Bool) (title : Option Str)
    (localHead remoteHead : Str) (turns : List Turn) (hub : Hub) (result : FinalizationResult)
    (hreplay : (finalize plan_path merge title).replay (turns.map Turn.step) = some (.ok result))
    (hrun : runs Hub.step (Hub.start localHead remoteHead) turns = some hub)
    (hundisturbed : StepsMeet Hub.step Hub.Undisturbed (Hub.start localHead remoteHead) turns) :
    hub.PublishedAsEvaluated (turns.map Turn.step) result := by
  have hsound : hub.Sound := invariant_of_stepsMeet hundisturbed hrun rfl
    fun _ _ _ h hok hstep => h.step hok hstep
  have hfinalized := ((finalize_safe title).replay hreplay).1 result rfl
  obtain ⟨head, haccepted, hprogress⟩ := hfinalized.foldl_after
  rw [List.nil_append] at haccepted hprogress
  have hfinal := Hub.progress_runs hrun
  rw [Hub.Sound, hfinal] at hsound
  rcases hprogress with ⟨hready, hpushed⟩ | hmerged
  · rw [Hub.start, hpushed] at hsound
    refine ⟨?_, fun hcompleted => ?_⟩
    · rw [haccepted, Hub.prHead, hsound.2, Option.getD_none, hsound.1]
    · rw [hready] at hcompleted
      exact nomatch hcompleted
  · rw [Hub.start, hmerged] at hsound
    exact ⟨by rw [haccepted, Hub.prHead, hsound, Option.getD_some], fun _ => haccepted ▸ hsound⟩

end Hub

section Samples

/-- The HEAD that `finalize` reads. -/
def verifiedSha : Str := "1f7a7a472abf3dd9643fd615f6da379c4acb3e3a"

/-- A later commit. -/
def laterSha : Str := "09fac8dbfd27bd9b4d23a00eb648aa751789536d"

/-- The sample plan. -/
def samplePlan : Str :=
  "\x7b\"issue\": 7, \"targetBranch\": \"main\", \"objective\": \"redis\"\x7d"

/-- An evaluation that has passed the sample HEAD. -/
def sampleEvidence : Str :=
  "\x7b\"state\": \"PASS\", \"candidateHeadSha\": \"" ++ verifiedSha ++ "\"\x7d"

/-- What is printed about a merged pull request. -/
def mergedView : Str := "\x7b\"state\": \"MERGED\", \"mergedAt\": \"2026-07-01T00:00:00Z\"\x7d"

/-- What is printed about a closed issue. -/
def closedView : Str := "\x7b\"state\": \"CLOSED\"\x7d"

/-- The values of the JSON texts that occur. -/
def sampleJson : List (Str × Json) :=
  [(samplePlan, .obj [("issue", .int 7), ("targetBranch", .str "main"),
    ("objective", .str "redis")]),
    (sampleEvidence, .obj [("state", .str "PASS"), ("candidateHeadSha", .str verifiedSha)]),
    ("[]", .arr []),
    (mergedView, .obj [("state", .str "MERGED"), ("mergedAt", .str "2026-07-01T00:00:00Z")]),
    (closedView, .obj [("state", .str "CLOSED")])]

/-- A runtime that decodes these texts. -/
@[reducible] def sampleRuntime : Runtime where
  loads text := (sampleJson.lookup text).elim
    (.error ⟨.JSONDecodeError, "Expecting value: line 1 column 1 (char 0)"⟩) .ok
  repr text := "'" ++ text ++ "'"
  format _ := "<value>"
  executable := "python3"

/-- A command that exits with zero. -/
def prints (command : Command) (stdout : Str) : Step Op.Answer :=
  ran command ⟨0, stdout ++ "\n", []⟩

/-- The steps up to the evaluation. -/
def sampleVerification : Trace :=
  [⟨.resolvePlan, .ok "harness/plan.json"⟩, ⟨.readPlan, .ok samplePlan⟩,
    prints .branchShowCurrent "feature/7-redis", prints .revParseHead verifiedSha,
    prints .statusPorcelain [], prints (.evaluate "harness/plan.json") "[PASS]",
    ⟨.readEvidence, .ok sampleEvidence⟩]

/-- The steps from the list of pull requests on, and the end. -/
def samplePublication : Trace :=
  [prints (.prList "feature/7-redis" "main") "[]",
    prints (.prCreate "main" "feature/7-redis" "feat: redis"
      (prBody ⟨7, "main", "redis", "harness/plan.json"⟩ verifiedSha))
      "https://github.com/coffee/coffee-order-system/pull/12",
    prints (.prChecks 12) [], prints (.prMerge 12) [], prints (.prView 12) mergedView,
    prints (.issueView 7) closedView]

/-- All steps, with what others did before each of them. -/
def sampleTurns (foreign : ℕ → List Foreign) : List Turn :=
  (sampleVerification ++ prints (.push "feature/7-redis") [] :: samplePublication).mapIdx
    fun n step => ⟨foreign n, step⟩

/-- Others commit before HEAD is read and after the push, and push after the merge. -/
def outside : ℕ → List Foreign
  | 0 => [.commit verifiedSha]
  | 9 => [.commit laterSha]
  | 12 => [.push laterSha]
  | _ => []

/-- A commit is made before the push. -/
def beforePush : ℕ → List Foreign
  | 7 => [.commit laterSha]
  | _ => []

/-- What `finalize` returns in the end. -/
def sampleResult : FinalizationResult :=
  ⟨.COMPLETED, 7, "feature/7-redis", 12, "https://github.com/coffee/coffee-order-system/pull/12",
    true, some true⟩

/-- Nobody disturbs the run where it matters. -/
theorem published_as_evaluated_undisturbed :
    letI := sampleRuntime
    (⟨laterSha, laterSha, some verifiedSha, .merged verifiedSha⟩ :
      Hub).PublishedAsEvaluated ((sampleTurns outside).map Turn.step) sampleResult := by
  let _ := sampleRuntime
  exact published_as_evaluated "harness/plan.json" true none [] [] (sampleTurns outside) _
    sampleResult (by decide +kernel) (by decide +kernel) (by decide +kernel)

/-- A commit made while `finalize` evaluates is pushed and merged in place of the
evaluated one. -/
theorem not_published_as_evaluated :
    ¬∀ [Runtime] (plan_path : Str) (merge : Bool) (title : Option Str) (localHead remoteHead : Str)
      (turns : List Turn) (hub : Hub) (result : FinalizationResult),
      (finalize plan_path merge title).replay (turns.map Turn.step) = some (.ok result) →
      runs Hub.step (Hub.start localHead remoteHead) turns = some hub →
      hub.PublishedAsEvaluated (turns.map Turn.step) result := by
  intro h
  let _ := sampleRuntime
  have hpublished := h "harness/plan.json" true none verifiedSha []
    (sampleTurns beforePush) ⟨laterSha, laterSha, some laterSha, .merged verifiedSha⟩
    sampleResult (by decide +kernel) (by decide +kernel)
  exact absurd hpublished.pr_head (by decide +kernel)

end Samples

end CoffeeOrder.Publish
