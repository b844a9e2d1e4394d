import CoffeeOrder.Publish.Races

/-!
# Pull requests across retries

A run of `finalize` may be cut at any command, with or without the effect of that
command, and be started again. What it did is kept by GitHub alone, and the next run
asks for the open pull requests only.
-/

namespace CoffeeOrder.Publish

open Kit Python

/-- A pull request on GitHub. -/
structure PullRequest where
  number : ℤ
  head : Str
  base : Str
  merged : Bool
  deriving DecidableEq

/-- What all runs work on: the branch, the manifest and the pull requests. -/
structure Forge where
  branch : Str
  planText : Str
  prs : List PullRequest
  /-- The number of the next pull request. -/
  nextNumber : ℤ
  /-- The numbers of the pull requests that the runs have created. -/
  created : List ℤ
  deriving DecidableEq

/-- The state before the first run. -/
def Forge.start (branch planText : Str) (prs : List PullRequest) (nextNumber : ℤ) : Forge :=
  ⟨branch, planText, prs, nextNumber, []⟩

/-- A step of a run, and whether its command took effect. One that raised or failed may
have taken effect. -/
structure Event where
  step : Step Op.Answer
  applied : Bool

/-- The pull requests that `gh pr list --state open` returns. -/
def Forge.openPrs (forge : Forge) (head base : Str) : List PullRequest :=
  forge.prs.filter fun pr => pr.head = head ∧ pr.base = base ∧ !pr.merged

/-- The effect of `gh pr create`. -/
def Forge.create (forge : Forge) (base head : Str) : Forge :=
  { forge with
    prs := forge.prs ++ [⟨forge.nextNumber, head, base, false⟩]
    nextNumber := forge.nextNumber + 1
    created := forge.created ++ [forge.nextNumber] }

/-- The effect of `gh pr merge`. -/
def Forge.merge (forge : Forge) (number : ℤ) : Forge :=
  { forge with
    prs := forge.prs.map fun pr => if pr.number = number then { pr with merged := true } else pr }

/-- The effect of a command. -/
def Forge.apply (forge : Forge) : Op → Forge
  | .run (.prCreate base branch _ _) => forge.create base branch
  | .run (.prMerge number) => forge.merge number
  | _ => forge

section Runs

variable [Runtime]

/-- The text is the list of the open pull requests. -/
def Forge.lists (forge : Forge) (head base raw : Str) : Bool :=
  match Runtime.loads (raw.orElse "[]") with
  | .ok (.arr items) =>
    items.length = (forge.openPrs head base).length &&
      (forge.openPrs head base).all fun pr => items.any fun item =>
        match item.get "number" with
        | .ok (.int number) => number = pr.number
        | _ => false
  | _ => false

omit [Runtime] in
/-- The text is the address of the pull request that was created. -/
def Forge.printsUrl (forge : Forge) (url : Str) : Bool :=
  match (pullNumber url).map intOfDigits with
  | some (.ok number) => number = forge.nextNumber
  | _ => false

/-- The branch, the manifest and GitHub answer what they hold. -/
def Forge.answers (forge : Forge) (step : Step Op.Answer) : Bool :=
  match step with
  | ⟨.readPlan, .ok text⟩ => text = forge.planText
  | step => match succeeded step with
    | some (.branchShowCurrent, result) => result.stdout.strip = forge.branch
    | some (.prList head base, result) => forge.lists head base result.stdout.strip
    | some (.prCreate _ _ _ _, result) => forge.printsUrl result.stdout.strip
    | _ => true

/-- One step of a run. A command that exits with zero took effect. -/
def Forge.step (forge : Forge) (event : Event) : Option Forge :=
  if forge.answers event.step ∧ ((succeeded event.step).isSome → event.applied) then
    some (if event.applied then forge.apply event.step.op else forge)
  else none

/-- A run asks for the open pull requests only if one is open or none was created before. -/
def Forge.Resumable (forge : Forge) (event : Event) : Prop :=
  match event.step.op with
  | .run (.prList head base) => forge.created = [] ∨ forge.openPrs head base ≠ []
  | _ => True

instance (forge : Forge) (event : Event) : Decidable (forge.Resumable event) := by
  unfold Forge.Resumable
  split <;> infer_instance

omit [Runtime] in
/-- Only `gh pr create` creates pull requests. -/
theorem Forge.apply_created (forge : Forge) {op : Op}
    (h : ∀ base branch title body, op ≠ .run (.prCreate base branch title body)) :
    (forge.apply op).created = forge.created := by
  cases op with
  | run command =>
    cases command with
    | prCreate base branch title body => exact absurd rfl (h base branch title body)
    | _ => rfl
  | _ => rfl

/-- An empty list means that no pull request is open. -/
theorem Forge.openPrs_of_lists {forge : Forge} {head base raw : Str}
    (h : forge.lists head base raw = true)
    (hempty : Runtime.loads (raw.orElse "[]") = .ok (.arr [])) : forge.openPrs head base = [] := by
  rw [Forge.lists, hempty, Bool.and_eq_true, decide_eq_true_eq] at h
  exact List.length_eq_zero_iff.mp h.1.symm

/-- A successful `gh pr list` that finds nothing, in a run that may resume, comes before
the first creation. -/
theorem Forge.created_of_listed {forge forge' : Forge} {event : Event} {branch base : Str}
    {listed : CompletedProcess} (hstep : forge.step event = some forge')
    (hevent : event.step = ran (.prList branch base) listed) (hzero : listed.returncode = 0)
    (hempty : Runtime.loads (listed.stdout.strip.orElse "[]") = .ok (.arr []))
    (hresumable : forge.Resumable event) : forge'.created = [] := by
  obtain ⟨⟨hanswers, -⟩, hforge⟩ := Option.ite_none_right_eq_some.mp hstep
  obtain rfl : forge = forge' := by
    rw [hevent] at hforge
    simpa [Forge.apply] using hforge
  have hlists : forge.lists branch base listed.stdout.strip = true := by
    rw [hevent] at hanswers
    simpa [Forge.answers, succeeded_ran hzero] using hanswers
  rw [Forge.Resumable, hevent] at hresumable
  exact hresumable.resolve_right fun hopen => hopen (Forge.openPrs_of_lists hlists hempty)

/-- A run, cut anywhere, creates at most one pull request, and none if one was created
before, as long as it may resume. -/
theorem Forge.created_run {forge forge' : Forge} {plan_path : Str} {title : Option Str}
    {events : List Event} (hbegins : (finalize plan_path true title).Begins (events.map Event.step))
    (hrun : runs Forge.step forge events = some forge')
    (hresumable : StepsMeet Forge.step Forge.Resumable forge events)
    (h : forge.created.length ≤ 1) : forge'.created.length ≤ 1 := by
  induction events using List.reverseRecOn generalizing forge' with
  | nil =>
    obtain rfl : forge = forge' := by simpa using hrun
    exact h
  | append_singleton events event ih =>
    obtain ⟨found, hprefix, hlast⟩ := (runs_snoc_eq_some Forge.step).mp hrun
    rw [List.map_append] at hbegins
    obtain ⟨hmeets, -⟩ := hresumable.snoc hprefix
    have hfound := ih hbegins.of_append hprefix hmeets
    obtain ⟨-, hforge⟩ := Option.ite_none_right_eq_some.mp hlast
    obtain rfl := Option.some.inj hforge
    split
    · by_cases hcreate : ∃ base branch title body,
          event.step.op = .run (.prCreate base branch title body)
      · obtain ⟨base, branch, title', body, hop⟩ := hcreate
        -- The guard of the command: it follows an empty list of open pull requests.
        have hallowed := (finalize_safe title).begins hbegins (events.map Event.step) event.step []
          rfl
        rw [hop] at hallowed
        obtain ⟨hsucceeded, v, pushed, listed, -, -, -, hempty, htrace⟩ := hallowed
        obtain ⟨before_, rest, rfl, -, hrest⟩ := List.map_eq_append_iff.mp htrace
        obtain ⟨push, rest, rfl, -, hrest⟩ := List.map_eq_cons_iff.mp hrest
        obtain ⟨list, rest, rfl, hlist, hrest⟩ := List.map_eq_cons_iff.mp hrest
        obtain rfl := List.map_eq_nil_iff.mp hrest
        rw [List.append_cons] at hprefix hmeets
        obtain ⟨earlier, hearlier, hlisted⟩ := (runs_snoc_eq_some Forge.step).mp hprefix
        have hzero : Succeeded list.step := hsucceeded _ (by simp)
        rw [hlist] at hzero
        have hnone := Forge.created_of_listed hlisted hlist hzero hempty
          (hmeets.snoc hearlier).2
        rw [hop, Forge.apply, Forge.create, hnone]
        exact Nat.le_refl 1
      · simp only [not_exists] at hcreate
        rwa [Forge.apply_created found hcreate]
    · exact hfound

/-- **One pull request across retries.** In every sequence of merging runs on the branch,
each cut anywhere and any command of which may have taken effect although it failed, at
most one pull request is created, as long as no run asks for the open pull requests when
one was created before and none is open. -/
theorem created_at_most_once (plan_path branch planText : Str) (prs : List PullRequest)
    (nextNumber : ℤ) (sessions : List (Option Str × List Event)) (forge : Forge)
    (hsessions : ∀ session ∈ sessions,
      (finalize plan_path true session.1).Begins (session.2.map Event.step))
    (hrun : runs Forge.step (.start branch planText prs nextNumber) (sessions.flatMap Prod.snd) =
      some forge)
    (hresumable : StepsMeet Forge.step Forge.Resumable (.start branch planText prs nextNumber)
      (sessions.flatMap Prod.snd)) :
    forge.created.length ≤ 1 := by
  have hstart : (Forge.start branch planText prs nextNumber).created.length ≤ 1 := Nat.zero_le 1
  generalize Forge.start branch planText prs nextNumber = start at hstart hrun hresumable
  induction sessions generalizing start with
  | nil =>
    obtain rfl : start = forge := by simpa using hrun
    exact hstart
  | cons session sessions ih =>
    obtain ⟨hsession, hsessions⟩ := List.forall_mem_cons.mp hsessions
    rw [List.flatMap_cons] at hrun hresumable
    obtain ⟨next, hfirst, hrest⟩ := Option.bind_eq_some_iff.mp
      ((runs_append Forge.step _ _ _).symm.trans hrun)
    obtain ⟨hmeets, hmeets'⟩ := hresumable.append hfirst
    exact ih hsessions next (Forge.created_run hsession hfirst hmeets hstart) hrest hmeets'

end Runs

section Samples

/-- The answer of `gh pr list` when the pull request is open. -/
def openList : Str :=
  "[\x7b\"number\": 12, \"url\": \"https://github.com/coffee/coffee-order-system/pull/12\", " ++
    "\"isDraft\": false, \"headRefOid\": \"" ++ verifiedSha ++ "\", \"body\": \"Closes #7\"\x7d]"

/-- The runtime that decodes this text, too. -/
@[reducible] def retryRuntime : Runtime :=
  { sampleRuntime with
    loads := fun text =>
      if text = openList then
        .ok (.arr [.obj [("number", .int 12),
          ("url", .str "https://github.com/coffee/coffee-order-system/pull/12"),
          ("isDraft", .bool false), ("headRefOid", .str verifiedSha), ("body", .str "Closes #7")]])
      else sampleRuntime.loads text }

/-- The command that creates the pull request. -/
def sampleCreate : Command :=
  .prCreate "main" "feature/7-redis" "feat: redis"
    (prBody ⟨7, "main", "redis", "harness/plan.json"⟩ verifiedSha)

/-- A command that exits with one. -/
def fails (command : Command) : Step Op.Answer := ran command ⟨1, [], "connection reset"⟩

/-- The steps up to the list of open pull requests, then some more. -/
def sampleSession (list : Str) (steps : List (Step Op.Answer)) : List Event :=
  (sampleVerification ++ prints (.push "feature/7-redis") [] ::
    prints (.prList "feature/7-redis" "main") list :: steps).map (⟨·, true⟩)

/-- A run that creates the pull request, but does not learn of it. -/
def cutSession : List Event := sampleSession "[]" [fails sampleCreate]

/-- A run that takes the open pull request up and merges it. -/
def resumedSession : List Event :=
  sampleSession openList [prints (.prChecks 12) [], prints (.prMerge 12) [],
    prints (.prView 12) mergedView, prints (.issueView 7) closedView]

/-- The second of these runs merges what the first one created. -/
theorem created_at_most_once_resumed :
    letI := retryRuntime
    ∃ forge, runs Forge.step (.start "feature/7-redis" samplePlan [] 12)
        (cutSession ++ resumedSession) = some forge ∧
      forge.prs.map PullRequest.merged = [true] ∧ forge.created.length ≤ 1 := by
  let _ := retryRuntime
  obtain ⟨forge, hrun, hmerged⟩ := exists_of_any_runs Forge.step
    (.start "feature/7-redis" samplePlan [] 12) (cutSession ++ resumedSession)
    (fun forge => forge.prs.map PullRequest.merged = [true]) (by decide +kernel)
  refine ⟨forge, hrun, of_decide_eq_true hmerged, ?_⟩
  exact created_at_most_once "harness/plan.json" "feature/7-redis" samplePlan [] 12
    [(none, cutSession), (none, resumedSession)] forge
    (List.forall_mem_cons.mpr ⟨Script.begins_of_isSome (by decide +kernel),
      List.forall_mem_singleton.mpr (Script.begins_of_isSome (by decide +kernel))⟩)
    hrun (by decide +kernel)

/-- If a run is cut after its merge, the next one creates a second pull request. -/
theorem not_created_at_most_once :
    ¬∀ [Runtime] (plan_path branch planText : Str) (prs : List PullRequest) (nextNumber : ℤ)
      (sessions : List (Option Str × List Event)) (forge : Forge),
      (∀ session ∈ sessions,
        (finalize plan_path true session.1).Begins (session.2.map Event.step)) →
      runs Forge.step (.start branch planText prs nextNumber) (sessions.flatMap Prod.snd) =
        some forge →
      forge.created.length ≤ 1 := by
  intro h
  let _ := sampleRuntime
  let merged := sampleSession "[]"
    [prints sampleCreate "https://github.com/coffee/coffee-order-system/pull/12",
      prints (.prChecks 12) [], prints (.prMerge 12) [], fails (.prView 12)]
  let again := sampleSession "[]"
    [prints sampleCreate "https://github.com/coffee/coffee-order-system/pull/13",
      fails (.prChecks 13)]
  obtain ⟨forge, hrun, htwo⟩ := exists_of_any_runs Forge.step
    (.start "feature/7-redis" samplePlan [] 12) (merged ++ again)
    (fun forge => forge.created = [12, 13]) (by decide +kernel)
  have hcreated := h "harness/plan.json" "feature/7-redis" samplePlan [] 12
    [(none, merged), (none, again)] forge
    (List.forall_mem_cons.mpr ⟨Script.begins_of_isSome (by decide +kernel),
      List.forall_mem_singleton.mpr (Script.begins_of_isSome (by decide +kernel))⟩) hrun
  rw [of_decide_eq_true htwo] at hcreated
  exact absurd hcreated (by decide)

end Samples

end CoffeeOrder.Publish
