import CoffeeOrder.Kit.Effects
import CoffeeOrder.Publish.Races
import CoffeeOrder.Python.JsonText

/-!
# What `main` reports

`main` prints a diagnostic for a `PublishError` and lets every other exception pass. The
functions of the script turn some exceptions of what they read into a `PublishError`, and
others not. What is printed about a result ends in the URL of the pull request, which need
not be one that the standard output can encode.
-/

namespace CoffeeOrder.Publish

open Kit Python

/-- The standard output of the process: the characters of its encoding, and the text of the
exception for a line with others. The standard error escapes these. -/
structure Terminal where
  encodes : CodePoint → Bool
  refusal : Str → Str
  ascii : ∀ c : CodePoint, c.val < 0x80 → encodes c = true

/-- All characters of the text can be encoded. -/
def Terminal.Encodes (terminal : Terminal) (text : Str) : Prop :=
  ∀ c ∈ text, terminal.encodes c = true

/-- `print(line)`. -/
def Terminal.print (terminal : Terminal) (line : Str) : Except Exc Unit :=
  if line.all terminal.encodes then .ok ()
  else .error ⟨.UnicodeEncodeError, terminal.refusal line⟩

/-- The text of a state. -/
def FinalState.value : FinalState → Str
  | .READY_FOR_REVIEW => "READY_FOR_REVIEW"
  | .COMPLETED => "COMPLETED"

/-- The line that `main` prints about a result. -/
def resultLine (result : FinalizationResult) : Str :=
  "[" ++ result.state.value ++ "] issue=#" ++ Str.ofInt result.issue ++ " PR=#" ++
    Str.ofInt result.pr_number ++ " " ++ result.pr_url

/-- What `main` does with the outcome of `finalize`: its exit status and what it prints, or the
exception that aborts it. -/
def report (terminal : Terminal) : Except Failure FinalizationResult → Except Exc (ℕ × Str)
  | .ok result => do
    terminal.print (resultLine result)
    return (0, resultLine result)
  | .error (.PublishError message) => .ok (1, "[FAIL] publish: " ++ message)
  | .error (.raised e) => .error e

/-- `finalize` has returned or raised a `PublishError`, and `main` reports it. -/
def Diagnosed (terminal : Terminal) (outcome : Except Failure FinalizationResult) : Prop :=
  (∃ result printed, outcome = .ok result ∧ report terminal outcome = .ok (0, printed)) ∨
    ∃ message, outcome = .error (.PublishError message) ∧
      report terminal outcome = .ok (1, "[FAIL] publish: " ++ message)

section Printing

variable {terminal : Terminal}

/-- A text can be encoded if its parts can. -/
theorem Terminal.encodes_append {text text' : Str} :
    terminal.Encodes (text ++ text') ↔ terminal.Encodes text ∧ terminal.Encodes text' :=
  List.forall_mem_append

/-- ASCII text can always be encoded. -/
theorem Terminal.encodes_ascii {text : Str} (h : JsonText.IsAscii text) : terminal.Encodes text :=
  fun c hc => terminal.ascii c (h c hc).2

/-- Only the URL of a result may be text that cannot be encoded. -/
theorem Terminal.encodes_resultLine {result : FinalizationResult} :
    terminal.Encodes (resultLine result) ↔ terminal.Encodes result.pr_url := by
  have hstate : JsonText.IsAscii result.state.value := by
    cases result.state with
    | READY_FOR_REVIEW => exact .of_all rfl
    | COMPLETED => exact .of_all rfl
  have hopening : JsonText.IsAscii ("[" ++ result.state.value ++ "] issue=#") :=
    (JsonText.IsAscii.append (.of_all rfl) hstate).append (.of_all rfl)
  have hissue := hopening.append (JsonText.isAscii_ofInt result.issue)
  have hnumber := (hissue.append (.of_all rfl : JsonText.IsAscii " PR=#")).append
    (JsonText.isAscii_ofInt result.pr_number)
  rw [resultLine, encodes_append]
  exact and_iff_right (encodes_ascii (hnumber.append (.of_all rfl)))

/-- A result is reported if its URL can be printed. -/
theorem diagnosed_ok_iff {result : FinalizationResult} :
    Diagnosed terminal (.ok result) ↔ terminal.Encodes result.pr_url := by
  rw [← Terminal.encodes_resultLine, Terminal.Encodes, ← List.all_eq_true]
  constructor
  · rintro (⟨_, printed, -, hreport⟩ | ⟨message, hraised, -⟩)
    · by_contra hline
      rw [report, Terminal.print, if_neg hline] at hreport
      cases hreport
    · cases hraised
  · intro hline
    refine .inl ⟨result, resultLine result, rfl, ?_⟩
    rw [report, Terminal.print, if_pos hline]
    rfl

end Printing

/-- What the answers so far have told: the branch and the HEAD, the URL of the pull request, and
whether the last answer completes the publication. -/
structure Heard where
  branch : Str
  head : Str
  url : Str
  done : Bool

/-- Nothing has been told yet. -/
def Heard.start : Heard := ⟨[], [], [], false⟩

/-- The exceptions that `load_manifest` turns into a `PublishError`. -/
def ManifestCatches (error : Exc) : Prop :=
  error.isOSError ∨ error.isValueError ∨ error.type = .KeyError ∨ error.type = .TypeError

/-- The exceptions that `evaluate_and_read_evidence` turns into a `PublishError`. -/
def EvidenceCatches (error : Exc) : Prop := error.isOSError ∨ error.type = .JSONDecodeError

/-- `int` takes the digits. -/
def TakesDigits (digits : Option Str) : Prop := ∀ found, digits = some found → found.length ≤ 4300

instance : DecidablePred TakesDigits := fun digits =>
  inferInstanceAs (Decidable (∀ found : Str, found ∈ digits → found.length ≤ 4300))

/-- The URL of an existing pull request, if it has a number and its HEAD is this one. -/
def existingUrl (head : Str) (existing : Json) : Option Str :=
  match existing.get "number", existing.get "url", existing.get "headRefOid" with
  | .ok (.int _), .ok (.str url), .ok remote_head =>
    if remote_head.isStr head then some url else none
  | _, _, _ => none

section Guards

variable [Runtime]

/-- The URL of the only pull request that is listed. -/
def listedUrl (head raw : Str) : Option Str :=
  match Runtime.loads (raw.orElse "[]") with
  | .ok (.arr [existing]) => existingUrl head existing
  | _ => none

/-- The text says that the issue is closed. -/
def saysClosed (text : Str) : Bool :=
  match Runtime.loads text with
  | .ok issue_state => match issue_state.get "state" with
    | .ok state => state.isStr "CLOSED"
    | .error _ => false
  | .error _ => false

/-- What a command that exits with zero tells by its output. -/
def Heard.read (heard : Heard) (output : Str) : Command → Heard
  | .branchShowCurrent => { heard with branch := output }
  | .revParseHead => { heard with head := output }
  | .prList _ _ =>
    let found := listedUrl heard.head output
    { heard with url := found.getD heard.url, done := found.isSome }
  | .prCreate _ _ _ _ => { heard with url := output, done := (pullNumber output).isSome }
  | .prEdit _ _ | .prReady _ => { heard with done := true }
  | .issueView _ => { heard with done := saysClosed output }
  | _ => { heard with done := false }

/-- What is known after a step. -/
def Heard.note (heard : Heard) : Step Op.Answer → Heard
  | ⟨.run command, .ok result⟩ =>
    if result.returncode = 0 then heard.read result.stdout.strip command
    else { heard with done := false }
  | _ => heard

/-- What is known after some steps. -/
def Heard.after (heard : Heard) (steps : Trace) : Heard := steps.foldl Heard.note heard

/-- The text is a JSON object. -/
def IsObject (text : Str) : Prop := ∃ entries, Runtime.loads text = .ok (.obj entries)

/-- What is printed as the list of pull requests is decoded or no JSON text, and if it is a
single one with a number, a URL and the HEAD, then its body is a string or none. -/
structure ListGuarded (head raw : Str) : Prop where
  decoded : ∀ error, Runtime.loads (raw.orElse "[]") = .error error → error.type = .JSONDecodeError
  body : ∀ item number url body, Runtime.loads (raw.orElse "[]") = .ok (.arr [item]) →
    item.get "number" = .ok (.int number) → item.get "url" = .ok (.str url) →
      item.get "headRefOid" = .ok (.str head) → item.get "body" = .ok body →
        (∃ text, body = .str text) ∨ body.truthy = false

/-- The answer is one that the script is prepared for. -/
def Heard.Guards (heard : Heard) : Step Op.Answer → Prop
  | ⟨.resolvePlan, .error error⟩ => ManifestCatches error
  | ⟨.readPlan, .error error⟩ => ManifestCatches error
  | ⟨.readPlan, .ok text⟩ => ∀ error, Runtime.loads text = .error error → ManifestCatches error
  | ⟨.readEvidence, .error error⟩ => EvidenceCatches error
  | ⟨.readEvidence, .ok text⟩ =>
    (∃ error, Runtime.loads text = .error error ∧ EvidenceCatches error) ∨ IsObject text
  | ⟨.run _, .error _⟩ => False
  | ⟨.run command, .ok result⟩ => result.returncode = 0 → match command with
    | .revParseHead => isHeadSha result.stdout.strip = true → TakesDigits (branchIssue heard.branch)
    | .prList _ _ => ListGuarded heard.head result.stdout.strip
    | .prCreate _ _ _ _ => TakesDigits (pullNumber result.stdout.strip)
    | .prView _ | .issueView _ => IsObject result.stdout.strip
    | _ => True
  | _ => True

/-- What is known, and whether the script was prepared for all answers so far. -/
abbrev Hearing := Heard × Prop

/-- The next answer. -/
def Hears (op : Op) (answer : op.Answer) (s s' : Hearing) : Prop :=
  s' = (s.1.note ⟨op, answer⟩, s.2 ∧ s.1.Guards ⟨op, answer⟩)

/-- The script was prepared for all answers. -/
def Prepared (heard : Heard) (steps : Trace) : Prop :=
  StepsMeet (fun heard step => some (heard.note step)) Heard.Guards heard steps

/-- The script is prepared for a run if it is for the first answer and for the others. -/
theorem prepared_cons {heard : Heard} {step : Step Op.Answer} {steps : Trace} :
    Prepared heard (step :: steps) ↔ heard.Guards step ∧ Prepared (heard.note step) steps := by
  simp only [Prepared, StepsMeet, Option.some.injEq, forall_eq']

/-- If the last answer completes the publication, the URL of the pull request can be printed. -/
def Shown (terminal : Terminal) (heard : Heard) : Prop :=
  heard.done = true → terminal.Encodes heard.url

/-- Every trace leads to what is known after it. -/
theorem exists_leads (steps : Trace) (s : Hearing) :
    ∃ s', Script.Leads Hears steps s s' ∧ s'.1 = s.1.after steps ∧
      (s'.2 ↔ s.2 ∧ Prepared s.1 steps) := by
  induction steps generalizing s with
  | nil => exact ⟨s, rfl, rfl, by simp [Prepared, StepsMeet]⟩
  | cons step steps ih =>
    obtain ⟨s', hleads, hheard, hs'⟩ := ih (s.1.note step, s.2 ∧ s.1.Guards step)
    refine ⟨s', ⟨_, rfl, hleads⟩, hheard, hs'.trans ?_⟩
    rw [prepared_cons, and_assoc]

/-- The script was prepared for all answers, and the last one does not complete the
publication. -/
structure Pending (s : Hearing) : Prop where
  prepared : s.2
  undone : s.1.done = false

/-- The script was prepared for all answers, and the last one completes the publication of this
pull request. -/
structure Published (s : Hearing) (url : Str) : Prop where
  prepared : s.2
  done : s.1.done = true
  url : s.1.url = url

/-- An exception that is caught later is raised while the publication is pending, and any other
one only where the script was not prepared. -/
structure Raises (Catches : Exc → Prop) (s : Hearing) (error : Exc) : Prop where
  caught : Catches error → Pending s
  catches : s.2 → Catches error

/-- An outcome where the given exceptions are caught later. -/
def Diagnoses (Catches : Exc → Prop) {α : Type} (Post : Hearing → α → Prop) (s : Hearing) :
    Except Failure α → Prop
  | .ok a => Post s a
  | .error (.PublishError _) => Pending s
  | .error (.raised error) => Raises Catches s error

/-- No exception is caught. -/
abbrev Uncaught : Exc → Prop := fun _ => False

section Rules

variable {Catches : Exc → Prop} {α β : Type} {Post : Hearing → α → Prop} {s : Hearing}

omit [Runtime] in
/-- What is not caught is raised where the script was not prepared. -/
theorem Raises.uncaught {error : Exc} (h : ¬s.2) : Raises Uncaught s error where
  caught := False.elim
  catches := h

omit [Runtime] in
/-- What is caught is raised while the publication is pending. -/
theorem Raises.of_pending {error : Exc} (hs : Pending s) (h : Catches error) :
    Raises Catches s error where
  caught _ := hs
  catches _ := h

/-- The parts of a script are diagnosed one after the other. -/
theorem bind_diagnoses {p : PublishM α} {f : α → PublishM β} {Post' : Hearing → β → Prop}
    (hp : p.Ensures Hears (Diagnoses Catches Post) s)
    (hf : ∀ s' a, Post s' a → (f a).Ensures Hears (Diagnoses Catches Post') s') :
    (p >>= f).Ensures Hears (Diagnoses Catches Post') s := by
  refine Script.Keeps.bind hp (fun s' failure hr => ?_) fun s' a ha => hf s' a ha
  cases failure <;> exact hr

/-- A weaker postcondition suffices. -/
theorem diagnoses_mono {p : PublishM α} {Post' : Hearing → α → Prop}
    (hp : p.Ensures Hears (Diagnoses Catches Post) s) (hpost : ∀ s' a, Post s' a → Post' s' a) :
    p.Ensures Hears (Diagnoses Catches Post') s := by
  refine hp.mono fun s' r hr => ?_
  cases r with
  | ok a => exact hpost s' a hr
  | error failure => cases failure <;> exact hr

/-- A given result. -/
theorem orRaise_diagnoses {x : Except Exc α}
    (h : ∀ error, x = .error error → Raises Catches s error) :
    (orRaise x).Ensures Hears (Diagnoses Catches fun s' a => s' = s ∧ x = .ok a) s := by
  refine Script.keeps_ofExcept.mpr ?_
  cases x with
  | ok a => exact ⟨rfl, rfl⟩
  | error error => exact h error rfl

/-- What cannot raise here. -/
theorem orRaise_diagnoses_ok {x : Except Exc α} {a : α} (h : x = .ok a) (hpost : Post s a) :
    (orRaise x).Ensures Hears (Diagnoses Catches Post) s := by
  subst h
  exact hpost

/-- A handler that turns what it catches into a `PublishError`. -/
theorem tryCatch_diagnoses {p : PublishM α} {handler : Failure → PublishM α}
    (hp : p.Ensures Hears (Diagnoses Catches Post) s)
    (hkeeps : ∀ message, handler (.PublishError message) = throw (.PublishError message))
    (hcatches : ∀ error, Catches error →
      ∃ message, handler (.raised error) = throw (.PublishError message))
    (hpasses : ∀ error, ¬Catches error → handler (.raised error) = throw (.raised error)) :
    (tryCatch p handler).Ensures Hears (Diagnoses Uncaught Post) s := by
  refine Script.keeps_tryCatch.mpr (hp.mono fun s' r hr => ?_)
  cases r with
  | ok a => exact hr
  | error failure =>
    cases failure with
    | PublishError message =>
      show (handler _).Ensures Hears _ s'
      rw [hkeeps]
      exact hr
    | raised error =>
      show (handler _).Ensures Hears _ s'
      by_cases hcaught : Catches error
      · obtain ⟨message, hhandler⟩ := hcatches error hcaught
        rw [hhandler]
        exact hr.caught hcaught
      · rw [hpasses error hcaught]
        exact .uncaught fun h => hcaught (hr.catches h)

/-- A command tells what it prints if it exits with zero. -/
theorem commandOutput_diagnoses {command : Command} {description : Str} (hs : s.2) :
    (commandOutput command description).Ensures Hears (Diagnoses Uncaught fun s' output =>
      ∃ result : CompletedProcess, output = result.stdout.strip ∧ result.returncode = 0 ∧
        s' = (s.1.read output command, s.2 ∧ s.1.Guards (ran command result))) s := by
  refine Script.ensures_ask fun answer s' hanswer => ?_
  obtain rfl : s' = _ := hanswer
  cases answer with
  | error error => exact .uncaught fun h => h.2
  | ok result =>
    show (if result.returncode ≠ 0 then _ else _ : PublishM Str).Ensures Hears _ _
    by_cases hzero : result.returncode = 0
    · rw [if_neg (not_not_intro hzero)]
      refine ⟨result, rfl, hzero, ?_⟩
      rw [Heard.note, if_pos hzero]
    · rw [if_pos hzero]
      refine ⟨⟨hs, fun h => absurd h hzero⟩, ?_⟩
      rw [Heard.note, if_neg hzero]

/-- A command whose output is not looked into. -/
theorem commandOutput_unread {command : Command} {description : Str} (hs : s.2)
    (hread : ∀ output, s.1.read output command = { s.1 with done := false })
    (hguards : ∀ result, s.1.Guards (ran command result)) :
    (commandOutput command description).Ensures Hears
      (Diagnoses Uncaught fun s' _ => Pending s' ∧ s'.1 = { s.1 with done := false }) s := by
  refine diagnoses_mono (commandOutput_diagnoses hs) ?_
  rintro s' output ⟨result, -, -, rfl⟩
  refine ⟨⟨⟨hs, hguards result⟩, ?_⟩, hread output⟩
  show (s.1.read output command).done = false
  rw [hread]

omit [Runtime] in
/-- What is known stays the same while the publication is pending. -/
theorem Pending.heard_eq (h : Pending s) : { s.1 with done := false } = s.1 := by
  rw [← h.undone]

end Rules

section Functions

variable {s : Hearing}

omit [Runtime] in
/-- The exceptions of `payload[key]` are caught. -/
theorem item_caught {payload : Json} {key : Str} {error : Exc}
    (h : payload.item key = .error error) : ManifestCatches error := by
  unfold Json.item at h
  split at h
  · split at h
    · exact nomatch h
    · exact .inr (.inr (.inl (Except.error.inj h ▸ rfl)))
  · exact .inr (.inr (.inr (Except.error.inj h ▸ rfl)))
  · exact .inr (.inr (.inr (Except.error.inj h ▸ rfl)))
  · exact .inr (.inr (.inr (Except.error.inj h ▸ rfl)))

/-- What is read of the manifest, before its fields are checked. -/
theorem readManifest_diagnoses (hs : Pending s) :
    (do
      let relative_path ← resolvePlan
      let payload ← orRaise (Runtime.loads (← readPlan))
      let issue ← orRaise (payload.item "issue")
      let target_branch ← orRaise (payload.item "targetBranch")
      let objective ← orRaise (payload.item "objective")
      return (relative_path, issue, target_branch, objective) :
        PublishM (Str × Json × Json × Json)).Ensures Hears
      (Diagnoses ManifestCatches fun s' _ => Pending s') s := by
  have hresolve : resolvePlan.Ensures Hears
      (Diagnoses ManifestCatches fun s' _ => Pending s') s := by
    refine Script.ensures_ask fun answer s' hanswer => ?_
    obtain rfl : s' = _ := hanswer
    cases answer with
    | ok text => exact ⟨⟨hs.prepared, trivial⟩, hs.undone⟩
    | error error => exact ⟨fun h => ⟨⟨hs.prepared, h⟩, hs.undone⟩, fun h => h.2⟩
  refine bind_diagnoses hresolve ?_
  rintro s₁ relative_path hs₁
  have hread : readPlan.Ensures Hears (Diagnoses ManifestCatches fun s' text =>
      s'.1.done = false ∧
        (s'.2 ↔ ∀ error, Runtime.loads text = .error error → ManifestCatches error)) s₁ := by
    refine Script.ensures_ask fun answer s' hanswer => ?_
    obtain rfl : s' = _ := hanswer
    cases answer with
    | ok text => exact ⟨hs₁.undone, and_iff_right hs₁.prepared⟩
    | error error => exact ⟨fun h => ⟨⟨hs₁.prepared, h⟩, hs₁.undone⟩, fun h => h.2⟩
  refine bind_diagnoses hread ?_
  rintro s₂ text ⟨hundone, hs₂⟩
  refine bind_diagnoses
    (orRaise_diagnoses fun error herror => ⟨fun h => ⟨?_, hundone⟩, fun h => ?_⟩) ?_
  · exact hs₂.mpr fun error' herror' => Except.error.inj (herror.symm.trans herror') ▸ h
  · exact hs₂.mp h error herror
  rintro s₂ payload ⟨rfl, hpayload⟩
  have hs : Pending s₂ := by
    refine ⟨hs₂.mpr fun error herror => ?_, hundone⟩
    cases hpayload.symm.trans herror
  have hitem (key : Str) : (orRaise (payload.item key)).Ensures Hears
      (Diagnoses ManifestCatches fun s' _ => s' = s₂) s₂ := by
    refine diagnoses_mono (orRaise_diagnoses fun error herror => ?_) fun s' a h => h.1
    exact .of_pending hs (item_caught herror)
  refine bind_diagnoses (hitem "issue") ?_
  rintro _ issue rfl
  refine bind_diagnoses (hitem "targetBranch") ?_
  rintro _ target_branch rfl
  refine bind_diagnoses (hitem "objective") ?_
  rintro _ objective rfl
  exact hs

/-- The manifest is read, or the publication ends with a diagnosis. -/
theorem loadManifest_diagnoses (hs : Pending s) :
    loadManifest.Ensures Hears (Diagnoses Uncaught fun s' _ => Pending s') s := by
  refine bind_diagnoses (tryCatch_diagnoses (readManifest_diagnoses hs) ?_ ?_ ?_) ?_
  · exact fun message => rfl
  · exact fun error hcaught => ⟨_, if_pos hcaught⟩
  · exact fun error hpassed => if_neg hpassed
  rintro s' ⟨relative_path, issue, target_branch, objective⟩ hs'
  cases issue with
  | int issue =>
    dsimp only
    split
    · exact hs'
    cases target_branch with
    | str target_branch =>
      dsimp only
      split
      · exact hs'
      cases objective with
      | str objective =>
        dsimp only
        split
        · exact hs'
        · exact hs'
      | _ => exact hs'
    | _ => exact hs'
  | _ => exact hs'

/-- A field that is there is found. -/
theorem found_diagnoses {value found : Json} {key : Str} (h : value.get key = .ok found) :
    (orRaise (value.get key)).Ensures Hears (Diagnoses Uncaught fun s' a => s' = s ∧ a = found) s :=
  orRaise_diagnoses_ok h ⟨rfl, rfl⟩

/-- `get` works on dictionaries only. -/
theorem get_diagnoses {value : Json} {key : Str} (hs : s.2 ↔ ∃ entries, value = .obj entries) :
    (orRaise (value.get key)).Ensures Hears (Diagnoses Uncaught fun s' a =>
      s' = s ∧ s'.2 ∧ value.get key = .ok a) s := by
  cases value with
  | obj entries => exact orRaise_diagnoses_ok rfl ⟨rfl, hs.mpr ⟨entries, rfl⟩, rfl⟩
  | _ => exact .uncaught fun h => (hs.mp h).elim fun _ h => nomatch h

/-- The HEAD is known, and the digits of the branch are taken if the script was prepared. -/
theorem currentBranchAndHead_diagnoses (hs : Pending s) :
    currentBranchAndHead.Ensures Hears (Diagnoses Uncaught fun s' read =>
      s'.1.head = read.2 ∧ s'.1.done = false ∧ (s'.2 ↔ TakesDigits (branchIssue read.1))) s := by
  refine bind_diagnoses (commandOutput_diagnoses hs.prepared) ?_
  rintro _ _ ⟨branchResult, rfl, hzero, rfl⟩
  refine bind_diagnoses (commandOutput_diagnoses ⟨hs.prepared, fun _ => trivial⟩) ?_
  rintro _ _ ⟨headResult, rfl, hzero, rfl⟩
  dsimp only
  split
  · rename_i hbranch
    refine ⟨⟨⟨hs.prepared, fun _ => trivial⟩, fun _ _ => ?_⟩, hs.undone⟩
    show TakesDigits (branchIssue branchResult.stdout.strip)
    rw [hbranch]
    exact fun found hfound => nomatch hfound
  split
  · rename_i hsha
    rw [Bool.not_eq_true'] at hsha
    exact ⟨⟨⟨hs.prepared, fun _ => trivial⟩,
      fun _ hsha' => nomatch hsha.symm.trans hsha'⟩, hs.undone⟩
  · rename_i hsha
    have hsha' : isHeadSha headResult.stdout.strip = true := by simpa using hsha
    refine ⟨rfl, hs.undone, fun h => h.2 hzero hsha', fun h => ?_⟩
    exact ⟨⟨hs.prepared, fun _ => trivial⟩, fun _ _ => h⟩

/-- More than 4300 digits are not taken. -/
theorem intOfDigits_diagnoses {digits : Str} (hs : s.2 ↔ TakesDigits (some digits)) :
    (orRaise (intOfDigits digits)).Ensures Hears
      (Diagnoses Uncaught fun s' _ => s' = s ∧ s'.2) s := by
  by_cases hlong : digits.length > 4300
  · rw [intOfDigits, if_pos hlong]
    exact .uncaught fun h => absurd (hs.mp h digits rfl) (by omega)
  · refine orRaise_diagnoses_ok (if_neg hlong) ⟨rfl, hs.mpr fun found hfound => ?_⟩
    obtain rfl := Option.some.inj hfound
    omega

/-- The branch is that of the issue, or the publication ends with a diagnosis. -/
theorem assertIssueBranch_diagnoses {branch : Str} {issue : ℤ} (hundone : s.1.done = false)
    (hs : s.2 ↔ TakesDigits (branchIssue branch)) :
    (assertIssueBranch branch issue).Ensures Hears
      (Diagnoses Uncaught fun s' _ => Pending s' ∧ s'.1 = s.1) s := by
  rw [assertIssueBranch]
  cases hdigits : branchIssue branch with
  | none =>
    refine ⟨hs.mpr (hdigits ▸ fun found hfound => ?_), hundone⟩
    cases hfound
  | some digits =>
    rw [hdigits] at hs
    refine bind_diagnoses (intOfDigits_diagnoses hs) ?_
    rintro s' found ⟨rfl, hs'⟩
    split
    · exact ⟨hs', hundone⟩
    · exact ⟨⟨hs', hundone⟩, rfl⟩

/-- The worktree is clean, or the publication ends with a diagnosis. -/
theorem assertCleanWorktree_diagnoses (hs : Pending s) :
    assertCleanWorktree.Ensures Hears
      (Diagnoses Uncaught fun s' _ => Pending s' ∧ s'.1 = s.1) s := by
  refine bind_diagnoses (commandOutput_unread hs.prepared (fun _ => rfl) fun _ _ => trivial) ?_
  rintro s' output hs'
  rw [hs.heard_eq] at hs'
  split
  · exact hs'.1
  · exact hs'

/-- The evidence is accepted, or the publication ends with a diagnosis. -/
theorem evaluateAndReadEvidence_diagnoses {plan_path head : Str} (hs : Pending s) :
    (evaluateAndReadEvidence plan_path head).Ensures Hears
      (Diagnoses Uncaught fun s' _ => Pending s' ∧ s'.1 = s.1) s := by
  refine bind_diagnoses (commandOutput_unread hs.prepared (fun _ => rfl) fun _ _ => trivial) ?_
  rintro s₁ output ⟨hs₁, hheard⟩
  rw [hs.heard_eq] at hheard
  have hread : readEvidence.Ensures Hears (Diagnoses EvidenceCatches fun s' text =>
      s'.1 = s.1 ∧ (s'.2 ↔
        (∃ error, Runtime.loads text = .error error ∧ EvidenceCatches error) ∨
          IsObject text)) s₁ := by
    refine Script.ensures_ask fun answer s' hanswer => ?_
    obtain rfl : s' = _ := hanswer
    cases answer with
    | ok text => exact ⟨hheard, and_iff_right hs₁.prepared⟩
    | error error => exact ⟨fun h => ⟨⟨hs₁.prepared, h⟩, hs₁.undone⟩, fun h => h.2⟩
  have hloads : (do orRaise (Runtime.loads (← readEvidence)) : PublishM Json).Ensures Hears
      (Diagnoses EvidenceCatches fun s' evidence =>
        s'.1 = s.1 ∧ (s'.2 ↔ ∃ entries, evidence = .obj entries)) s₁ := by
    refine bind_diagnoses hread ?_
    rintro s₂ text ⟨hheard₂, hs₂⟩
    cases hloads : Runtime.loads text with
    | error error =>
      refine ⟨fun h => ⟨hs₂.mpr (.inl ⟨error, hloads, h⟩), hheard₂ ▸ hs.undone⟩, fun h => ?_⟩
      obtain ⟨error', herror', h⟩ | ⟨entries, hentries⟩ := hs₂.mp h
      · exact Except.error.inj (hloads.symm.trans herror') ▸ h
      · cases hloads.symm.trans hentries
    | ok evidence =>
      refine ⟨hheard₂, hs₂.trans ⟨?_, ?_⟩⟩
      · rintro (⟨error', herror', -⟩ | ⟨entries, hentries⟩)
        · exact nomatch hloads.symm.trans herror'
        · exact ⟨entries, Except.ok.inj (hloads.symm.trans hentries)⟩
      · rintro ⟨entries, rfl⟩
        exact .inr ⟨entries, hloads⟩
  refine bind_diagnoses (tryCatch_diagnoses hloads ?_ ?_ ?_) ?_
  · exact fun message => rfl
  · exact fun error hcaught => ⟨_, if_pos hcaught⟩
  · exact fun error hpassed => if_neg hpassed
  rintro s₂ evidence ⟨hheard₂, hs₂⟩
  have hundone : s₂.1.done = false := hheard₂ ▸ hs.undone
  refine bind_diagnoses (get_diagnoses hs₂) ?_
  rintro s₃ state ⟨rfl, hs₃, -⟩
  split
  · exact ⟨hs₃, hundone⟩
  refine bind_diagnoses (get_diagnoses hs₂) ?_
  rintro s₄ candidate ⟨rfl, -, -⟩
  split
  · exact ⟨hs₃, hundone⟩
  · exact ⟨⟨hs₃, hundone⟩, hheard₂⟩

/-- Only the list of a single pull request has to be guarded. -/
theorem ListGuarded.of_loads {head raw : Str} {payload : Json}
    (hloads : Runtime.loads (raw.orElse "[]") = .ok payload)
    (h : ∀ entries, payload ≠ .arr [.obj entries]) : ListGuarded head raw where
  decoded error herror := nomatch hloads.symm.trans herror
  body item number url body hitem hnumber _ _ _ := by
    obtain rfl := Except.ok.inj (hloads.symm.trans hitem)
    cases item with
    | obj entries => exact absurd rfl (h entries)
    | _ => exact nomatch hnumber

/-- What the list has to be like once it is a single pull request. -/
def BodyGuarded (head : Str) (item : Json) : Prop :=
  ∀ number url body, item.get "number" = .ok (.int number) → item.get "url" = .ok (.str url) →
    item.get "headRefOid" = .ok (.str head) → item.get "body" = .ok body →
      (∃ text, body = .str text) ∨ body.truthy = false

/-- A single pull request is guarded by its body. -/
theorem listGuarded_iff {head raw : Str} {item : Json}
    (hloads : Runtime.loads (raw.orElse "[]") = .ok (.arr [item])) :
    ListGuarded head raw ↔ BodyGuarded head item := by
  refine ⟨fun h number url body => h.body item number url body hloads, fun h => ⟨?_, ?_⟩⟩
  · exact fun error herror => nomatch hloads.symm.trans herror
  · intro item' number url body hloads'
    obtain ⟨rfl, -⟩ := List.cons.inj (Json.arr.inj (Except.ok.inj (hloads.symm.trans hloads')))
    exact h number url body

/-- The list is accepted, or the publication ends with a diagnosis. -/
theorem parsePrList_diagnoses {head raw : Str} (hdone : s.1.done = (listedUrl head raw).isSome)
    (hs : s.2 ↔ ListGuarded head raw) :
    (parsePrList raw).Ensures Hears (Diagnoses Uncaught fun s' items =>
      s' = s ∧ Runtime.loads (raw.orElse "[]") = .ok (.arr items) ∧
        ∀ item ∈ items, ∃ entries, item = .obj entries) s := by
  rw [parsePrList]
  rw [listedUrl] at hdone
  cases hloads : Runtime.loads (raw.orElse "[]") with
  | error error =>
    rw [hloads] at hdone
    dsimp only
    split
    · rename_i htype
      refine ⟨hs.mpr ⟨fun error' herror' => ?_, fun item _ _ _ hitem => ?_⟩, hdone⟩
      · exact Except.error.inj (hloads.symm.trans herror') ▸ htype
      · cases hloads.symm.trans hitem
    · rename_i htype
      exact .uncaught fun h => htype ((hs.mp h).decoded error hloads)
  | ok payload =>
    rw [hloads] at hdone
    cases payload with
    | arr items =>
      simp only [Script.pure_bind]
      split
      · rename_i hforeign
        refine ⟨hs.mpr (.of_loads hloads fun entries hitems => ?_), hdone.trans ?_⟩
        · obtain rfl := Json.arr.inj hitems
          exact absurd hforeign Bool.false_ne_true
        · obtain _ | ⟨existing, _ | ⟨_, _⟩⟩ := items
          · rfl
          · cases existing with
            | obj entries => exact absurd hforeign Bool.false_ne_true
            | _ => rfl
          · rfl
      · rename_i hforeign
        refine ⟨rfl, rfl, fun item hitem => ?_⟩
        cases item with
        | obj entries => exact ⟨entries, rfl⟩
        | _ => exact absurd (List.any_eq_true.mpr ⟨_, hitem, rfl⟩) hforeign
    | _ =>
      refine ⟨hs.mpr (.of_loads hloads fun entries h => ?_), hdone⟩
      cases h

/-- A created pull request has the URL that was printed. -/
theorem createPr_diagnoses {manifest : Manifest} {branch head : Str} {title : Option Str}
    (hs : s.2) :
    (createPr manifest branch head title).Ensures Hears
      (Diagnoses Uncaught fun s' created => Published s' created.2) s := by
  refine bind_diagnoses (commandOutput_diagnoses hs) ?_
  rintro s' _ ⟨result, rfl, hzero, hs'⟩
  have hguarded : s'.2 ↔ TakesDigits (pullNumber result.stdout.strip) := by
    rw [hs']
    exact ⟨fun h => h.2 hzero, fun h => ⟨hs, fun _ => h⟩⟩
  have hdone : s'.1.done = (pullNumber result.stdout.strip).isSome := by rw [hs', Heard.read]
  have hurl : s'.1.url = result.stdout.strip := by rw [hs', Heard.read]
  cases hdigits : pullNumber result.stdout.strip with
  | none =>
    rw [hdigits] at hdone
    exact ⟨hguarded.mpr (hdigits ▸ fun found hfound => nomatch hfound), hdone⟩
  | some digits =>
    rw [hdigits] at hguarded hdone
    refine bind_diagnoses (intOfDigits_diagnoses hguarded) ?_
    rintro s'' number ⟨rfl, hs''⟩
    exact ⟨hs'', hdone, hurl⟩

omit [Runtime] in
/-- A body that is no string is replaced, or it has no method `rstrip`. -/
theorem linkedBody_of_not_str (issue : ℤ) {body : Json} (h : ¬∃ text, body = .str text) :
    ∃ text, linkedBody issue body =
      if body.truthy then .error (body.noAttribute "rstrip") else .ok (some text) := by
  cases body with
  | str text => exact absurd ⟨text, rfl⟩ h
  | _ => exact ⟨_, rfl⟩

/-- The body is linked unless it is true as a condition and no string. -/
theorem linkedBody_diagnoses {issue : ℤ} {body : Json}
    (hs : s.2 ↔ (∃ text, body = .str text) ∨ body.truthy = false) :
    (orRaise (linkedBody issue body)).Ensures Hears
      (Diagnoses Uncaught fun s' _ => s' = s ∧ s'.2) s := by
  by_cases hstr : ∃ text, body = .str text
  · obtain ⟨text, rfl⟩ := hstr
    exact orRaise_diagnoses_ok rfl ⟨rfl, hs.mpr (.inl ⟨text, rfl⟩)⟩
  · obtain ⟨text, hlinked⟩ := linkedBody_of_not_str issue hstr
    rw [hlinked]
    cases htruthy : body.truthy with
    | true => exact .uncaught fun h => (hs.mp h).elim hstr (by simp [htruthy])
    | false => exact ⟨rfl, hs.mpr (.inr htruthy)⟩

/-- A command that changes the pull request completes its publication. -/
theorem commandOutput_completes {command : Command} {description url : Str}
    (hs : Published s url) (hread : ∀ output, s.1.read output command = { s.1 with done := true })
    (hguards : ∀ result, s.1.Guards (ran command result)) :
    (commandOutput command description).Ensures Hears
      (Diagnoses Uncaught fun s' _ => Published s' url) s := by
  refine diagnoses_mono (commandOutput_diagnoses hs.prepared) ?_
  rintro s' output ⟨result, -, -, rfl⟩
  rw [hread]
  exact ⟨⟨hs.prepared, hguards result⟩, rfl, hs.url⟩

/-- The body is looked into unless it is a string or none. -/
theorem linkIssue_diagnoses {issue number : ℤ} {existing body : Json} {url : Str}
    (hbody : existing.get "body" = .ok body) (hdone : s.1.done = true) (hurl : s.1.url = url)
    (hs : s.2 ↔ (∃ text, body = .str text) ∨ body.truthy = false) :
    (linkIssue issue number existing).Ensures Hears
      (Diagnoses Uncaught fun s' _ => Published s' url) s := by
  refine bind_diagnoses (found_diagnoses hbody) ?_
  rintro s body ⟨rfl, rfl⟩
  refine bind_diagnoses (linkedBody_diagnoses hs) ?_
  rintro s updated ⟨rfl, hs'⟩
  cases updated with
  | none => exact ⟨hs', hdone, hurl⟩
  | some updated =>
    refine bind_diagnoses
      (commandOutput_completes ⟨hs', hdone, hurl⟩ (fun _ => rfl) fun _ _ => trivial) ?_
    exact fun s' _ hs' => hs'

/-- A draft is made ready for review. -/
theorem markReady_diagnoses {number : ℤ} {entries : List (Str × Json)} {url : Str}
    (hs : Published s url) :
    (markReady number (.obj entries)).Ensures Hears
      (Diagnoses Uncaught fun s' _ => Published s' url) s := by
  refine bind_diagnoses (get_diagnoses (iff_of_true hs.prepared ⟨entries, rfl⟩)) ?_
  rintro s draft ⟨rfl, -, -⟩
  split
  · refine bind_diagnoses (commandOutput_completes hs (fun _ => rfl) fun _ _ => trivial) ?_
    exact fun s' _ hs' => hs'
  · exact hs

/-- An existing pull request is accepted and completed, or the publication ends with a
diagnosis. -/
theorem preparePr_diagnoses {manifest : Manifest} {head : Str} {entries : List (Str × Json)}
    (hdone : s.1.done = (existingUrl head (.obj entries)).isSome)
    (hurl : ∀ url, existingUrl head (.obj entries) = some url → s.1.url = url)
    (hs : s.2 ↔ BodyGuarded head (.obj entries)) :
    (preparePr manifest head (.obj entries)).Ensures Hears
      (Diagnoses Uncaught fun s' prepared => Published s' prepared.2) s := by
  have hget (key : Str) : ∃ value, (Json.obj entries).get key = .ok value := ⟨_, rfl⟩
  obtain ⟨number, hnumber⟩ := hget "number"
  obtain ⟨url, hfound⟩ := hget "url"
  obtain ⟨remote_head, hremote⟩ := hget "headRefOid"
  obtain ⟨body, hbody⟩ := hget "body"
  rw [existingUrl, hnumber, hfound, hremote] at hdone hurl
  refine bind_diagnoses (found_diagnoses hnumber) ?_
  rintro s number ⟨rfl, rfl⟩
  refine bind_diagnoses (found_diagnoses hfound) ?_
  rintro s url ⟨rfl, rfl⟩
  refine bind_diagnoses (found_diagnoses hremote) ?_
  rintro s remote_head ⟨rfl, rfl⟩
  cases number with
  | int number =>
    cases url with
    | str url =>
      dsimp only at hdone hurl ⊢
      split
      · rename_i hother
        rw [Bool.not_eq_true'] at hother
        rw [hother] at hdone
        refine ⟨hs.mpr fun _ _ _ _ _ hremote' _ => ?_, hdone⟩
        obtain rfl := Except.ok.inj (hremote.symm.trans hremote')
        exact absurd hother (by simp [Json.isStr])
      · rename_i hhead
        rw [Bool.not_eq_true', Bool.not_eq_false] at hhead
        rw [hhead] at hdone hurl
        refine bind_diagnoses (linkIssue_diagnoses hbody hdone (hurl url rfl) (hs.trans ?_)) ?_
        · obtain rfl := Json.isStr_iff.mp hhead
          refine ⟨fun h => h number url body hnumber hfound hremote hbody, fun h => ?_⟩
          intro _ _ body' _ _ _ hbody'
          exact Except.ok.inj (hbody.symm.trans hbody') ▸ h
        rintro s' _ hs'
        refine bind_diagnoses (markReady_diagnoses hs') ?_
        exact fun s'' _ hs'' => hs''
    | _ =>
      refine ⟨hs.mpr fun _ _ _ _ hurl' => ?_, hdone⟩
      cases hfound.symm.trans hurl'
  | _ =>
    refine ⟨hs.mpr fun _ _ _ hnumber' => ?_, hdone⟩
    cases hnumber.symm.trans hnumber'

/-- The pull request is created or completed, or the publication ends with a diagnosis. -/
theorem createOrPreparePr_diagnoses {manifest : Manifest} {branch head : Str} {title : Option Str}
    (hs : Pending s) (hhead : s.1.head = head) :
    (createOrPreparePr manifest branch head title).Ensures Hears
      (Diagnoses Uncaught fun s' pr => Published s' pr.2) s := by
  refine bind_diagnoses (commandOutput_unread hs.prepared (fun _ => rfl) fun _ _ => trivial) ?_
  rintro s₁ _ ⟨hs₁, hheard⟩
  rw [hs.heard_eq] at hheard
  refine bind_diagnoses (commandOutput_diagnoses hs₁.prepared) ?_
  rintro s₂ _ ⟨listed, rfl, hzero, hs₂⟩
  have hguarded : s₂.2 ↔ ListGuarded head listed.stdout.strip := by
    rw [hs₂, ← hhead, ← hheard]
    exact ⟨fun h => h.2 hzero, fun h => ⟨hs₁.prepared, fun _ => h⟩⟩
  have hread : s₂.1 = { s₁.1 with
      url := (listedUrl head listed.stdout.strip).getD s₁.1.url
      done := (listedUrl head listed.stdout.strip).isSome } := by
    rw [hs₂, ← hhead, ← hheard]
    rfl
  refine bind_diagnoses (parsePrList_diagnoses (by rw [hread]) hguarded) ?_
  rintro s items ⟨rfl, hloads, hitems⟩
  rw [listedUrl, hloads] at hread
  match items with
  | [] => exact createPr_diagnoses (hguarded.mpr (.of_loads hloads fun entries h => nomatch h))
  | [existing] =>
    obtain ⟨entries, rfl⟩ := hitems existing List.mem_cons_self
    refine preparePr_diagnoses (by rw [hread]) (fun url hurl => ?_)
      (hguarded.trans (listGuarded_iff hloads))
    rw [hread]
    dsimp only
    rw [hurl, Option.getD_some]
  | _ :: _ :: _ =>
    exact ⟨hguarded.mpr (.of_loads hloads fun entries h => nomatch h), by rw [hread]; rfl⟩

/-- What a command prints as a JSON object. -/
theorem loads_diagnoses {text : Str} (hs : s.2 ↔ IsObject text) :
    (orRaise (Runtime.loads text)).Ensures Hears (Diagnoses Uncaught fun s' value =>
      s' = s ∧ Runtime.loads text = .ok value ∧ (s'.2 ↔ ∃ entries, value = .obj entries)) s := by
  cases hloads : Runtime.loads text with
  | error error =>
    exact .uncaught fun h => (hs.mp h).elim fun _ h => nomatch hloads.symm.trans h
  | ok value =>
    refine ⟨rfl, rfl, hs.trans ⟨?_, ?_⟩⟩
    · exact fun ⟨entries, h⟩ => ⟨entries, Except.ok.inj (hloads.symm.trans h)⟩
    · rintro ⟨entries, rfl⟩
      exact ⟨entries, hloads⟩

/-- After a look at the issue the publication is complete if it is closed. -/
theorem viewIssue_diagnoses {issue : ℤ} {description : Str} (hs : s.2) :
    (viewIssue issue description).Ensures Hears (Diagnoses Uncaught fun s' state =>
      s'.2 ∧ s'.1.url = s.1.url ∧ s'.1.done = state.isStr "CLOSED") s := by
  refine bind_diagnoses (commandOutput_diagnoses hs) ?_
  rintro s' _ ⟨viewed, rfl, hzero, hs'⟩
  have hguarded : s'.2 ↔ IsObject viewed.stdout.strip := by
    rw [hs']
    exact ⟨fun h => h.2 hzero, fun h => ⟨hs, fun _ => h⟩⟩
  have hread : s'.1 = { s.1 with done := saysClosed viewed.stdout.strip } := by rw [hs', Heard.read]
  refine bind_diagnoses (loads_diagnoses hguarded) ?_
  rintro s'' issue_state ⟨rfl, hloads, hobject⟩
  refine diagnoses_mono (get_diagnoses hobject) ?_
  rintro s state ⟨rfl, hs'', hstate⟩
  refine ⟨hs'', by rw [hread], ?_⟩
  rw [hread]
  dsimp only
  rw [saysClosed, hloads]
  dsimp only
  rw [hstate]

/-- The merge has been seen, or the publication ends with a diagnosis. -/
theorem verifyMerged_diagnoses {number : ℤ} (hs : s.2) :
    (verifyMerged number).Ensures Hears (Diagnoses Uncaught fun s' _ =>
      Pending s' ∧ s'.1.url = s.1.url) s := by
  refine bind_diagnoses (commandOutput_diagnoses hs) ?_
  rintro s' _ ⟨viewed, rfl, hzero, hs'⟩
  have hguarded : s'.2 ↔ IsObject viewed.stdout.strip := by
    rw [hs']
    exact ⟨fun h => h.2 hzero, fun h => ⟨hs, fun _ => h⟩⟩
  have hread : s'.1 = { s.1 with done := false } := by
    rw [hs']
    rfl
  refine bind_diagnoses (loads_diagnoses hguarded) ?_
  rintro s'' pr_state ⟨rfl, -, hobject⟩
  refine bind_diagnoses (get_diagnoses hobject) ?_
  rintro s₁ state ⟨rfl, hs₁, -⟩
  refine bind_diagnoses (get_diagnoses hobject) ?_
  rintro s₂ merged_at ⟨rfl, -, -⟩
  have hpending : Pending s₂ := ⟨hs₁, by rw [hread]⟩
  split
  · exact hpending
  · exact ⟨hpending, by rw [hread]⟩

/-- The issue is closed in the end, or the publication ends with a diagnosis. -/
theorem verifyClosed_diagnoses {issue number : ℤ} {url : Str} (hs : s.2) (hurl : s.1.url = url) :
    (verifyClosed issue number).Ensures Hears
      (Diagnoses Uncaught fun s' _ => Published s' url) s := by
  refine bind_diagnoses (viewIssue_diagnoses hs) ?_
  rintro s₁ found ⟨hs₁, hurl₁, hdone₁⟩
  have hclose : (closeIfOpen issue number found).Ensures Hears
      (Diagnoses Uncaught fun s' state => s'.2 ∧ s'.1.url = url ∧
        s'.1.done = state.isStr "CLOSED") s₁ := by
    rw [closeIfOpen]
    split
    · refine bind_diagnoses (commandOutput_unread hs₁ (fun _ => rfl) fun _ _ => trivial) ?_
      rintro s₂ _ ⟨hs₂, hheard₂⟩
      refine diagnoses_mono (viewIssue_diagnoses hs₂.prepared) ?_
      rintro s₃ state ⟨hs₃, hurl₃, hdone₃⟩
      exact ⟨hs₃, by rw [hurl₃, hheard₂, hurl₁, hurl], hdone₃⟩
    · exact ⟨hs₁, hurl₁.trans hurl, hdone₁⟩
  refine bind_diagnoses hclose ?_
  rintro s₂ issue_state ⟨hs₂, hurl₂, hdone₂⟩
  split
  · rename_i hopen
    rw [Bool.not_eq_true'] at hopen
    exact ⟨hs₂, hdone₂.trans hopen⟩
  · rename_i hclosed
    rw [Bool.not_eq_true', Bool.not_eq_false] at hclosed
    exact ⟨hs₂, hdone₂.trans hclosed, hurl₂⟩

/-- The pull request is merged and the issue closed, or the publication ends with a diagnosis. -/
theorem mergeAndVerify_diagnoses {manifest : Manifest} {number : ℤ} {url : Str}
    (hs : Published s url) :
    (mergeAndVerify manifest number).Ensures Hears
      (Diagnoses Uncaught fun s' _ => Published s' url) s := by
  refine bind_diagnoses (commandOutput_unread hs.prepared (fun _ => rfl) fun _ _ => trivial) ?_
  rintro s₁ _ ⟨hs₁, hheard₁⟩
  refine bind_diagnoses (commandOutput_unread hs₁.prepared (fun _ => rfl) fun _ _ => trivial) ?_
  rintro s₂ _ ⟨hs₂, hheard₂⟩
  refine bind_diagnoses (verifyMerged_diagnoses hs₂.prepared) ?_
  rintro s₃ _ ⟨hs₃, hurl₃⟩
  have hurl : s₃.1.url = url := by rw [hurl₃, hheard₂, hheard₁, hs.url]
  refine bind_diagnoses (verifyClosed_diagnoses hs₃.prepared hurl) ?_
  exact fun s₄ _ hs₄ => hs₄

/-- The publication is complete with the URL of the result, or it ends with a diagnosis. -/
theorem finalize_diagnoses {plan_path : Str} {merge : Bool} {title : Option Str} (hs : Pending s) :
    (finalize plan_path merge title).Ensures Hears
      (Diagnoses Uncaught fun s' result => Published s' result.pr_url) s := by
  refine bind_diagnoses (loadManifest_diagnoses hs) ?_
  rintro s₁ manifest hs₁
  refine bind_diagnoses (currentBranchAndHead_diagnoses hs₁) ?_
  rintro s₂ ⟨branch, head⟩ ⟨hheard, hundone, hs₂⟩
  refine bind_diagnoses (assertIssueBranch_diagnoses hundone hs₂) ?_
  rintro s₃ _ ⟨hs₃, hheard₃⟩
  refine bind_diagnoses (assertCleanWorktree_diagnoses hs₃) ?_
  rintro s₄ _ ⟨hs₄, hheard₄⟩
  refine bind_diagnoses (evaluateAndReadEvidence_diagnoses hs₄) ?_
  rintro s₅ _ ⟨hs₅, hheard₅⟩
  have hhead : s₅.1.head = head := by rw [hheard₅, hheard₄, hheard₃, hheard]
  refine bind_diagnoses (createOrPreparePr_diagnoses hs₅ hhead) ?_
  rintro s₆ ⟨pr_number, pr_url⟩ hs₆
  cases merge with
  | false => exact hs₆
  | true =>
    refine bind_diagnoses (mergeAndVerify_diagnoses hs₆) ?_
    exact fun s₇ _ hs₇ => hs₇

end Functions

/-- **Diagnoses.** `finalize` returns or raises a `PublishError`, which `main` reports, if and
only if the script was prepared for every answer of the run and the standard output can encode the
URL of a pull request whose publication the last answer completes. -/
theorem finalize_diagnosed_iff (terminal : Terminal) (plan_path : Str) (merge : Bool)
    (title : Option Str) (steps : Trace) (outcome : Except Failure FinalizationResult)
    (hreplay : (finalize plan_path merge title).replay steps = some outcome) :
    Diagnosed terminal outcome ↔
      Prepared .start steps ∧ Shown terminal (Heard.start.after steps) := by
  obtain ⟨s', hleads, hheard, hs'⟩ := exists_leads steps (.start, True)
  have houtcome := (finalize_diagnoses ⟨trivial, rfl⟩).replay hleads hreplay
  rw [true_and] at hs'
  rw [← hs', ← hheard]
  match outcome with
  | .ok result =>
    have hpublished : Published s' result.pr_url := houtcome
    rw [diagnosed_ok_iff, Shown, hpublished.url]
    exact ⟨fun h => ⟨hpublished.prepared, fun _ => h⟩, fun h => h.2 hpublished.done⟩
  | .error (.PublishError message) =>
    have hpending : Pending s' := houtcome
    refine iff_of_true (.inr ⟨message, rfl, rfl⟩) ⟨hpending.prepared, fun hdone => ?_⟩
    exact absurd (hpending.undone.symm.trans hdone) Bool.false_ne_true
  | .error (.raised error) =>
    have hraises : Raises Uncaught s' error := houtcome
    refine iff_of_false ?_ fun h => hraises.catches h.1
    rintro (⟨result, printed, h, -⟩ | ⟨message, h, -⟩)
    · cases h
    · cases h

end Guards

section Samples

/-- A standard output in UTF-8. -/
def utf8Terminal : Terminal where
  encodes c := !(0xd800 ≤ c.val && c.val ≤ 0xdfff)
  refusal _ := "'utf-8' codec can't encode character: surrogates not allowed"
  ascii c hc := by
    simp only [Bool.not_eq_true', Bool.and_eq_false_iff, decide_eq_false_iff_not]
    omega

/-- The steps of a run that merges the pull request and finds the issue closed. -/
def mergedSteps : Trace :=
  sampleVerification ++ prints (.push "feature/7-redis") [] :: samplePublication

/-- What is printed about a merged pull request is encoded. -/
theorem finalize_diagnosed_iff_merged : Diagnosed utf8Terminal (.ok sampleResult) := by
  let _ := sampleRuntime
  refine (finalize_diagnosed_iff utf8Terminal "harness/plan.json" true none mergedSteps _
    (by decide +kernel)).mpr ⟨?_, ?_⟩
  · have hplan : Runtime.loads samplePlan = .ok (.obj [("issue", .int 7),
        ("targetBranch", .str "main"), ("objective", .str "redis")]) := rfl
    have hevidence : IsObject sampleEvidence := ⟨_, rfl⟩
    have hempty : Runtime.loads (Str.orElse "[]" "[]") = .ok (.arr []) := rfl
    have hlist : ListGuarded verifiedSha "[]" := .of_loads hempty fun entries h => by cases h
    have hview : IsObject mergedView := ⟨_, rfl⟩
    have hclosed : IsObject closedView := ⟨_, rfl⟩
    simp only [mergedSteps, sampleVerification, samplePublication, List.cons_append,
      List.nil_append, prepared_cons]
    refine ⟨trivial, fun error h => ?_, fun _ => trivial, fun _ _ => ?_, fun _ => trivial,
      fun _ => trivial, .inr hevidence, fun _ => trivial, fun _ => ?_, fun _ => ?_,
      fun _ => trivial, fun _ => trivial, fun _ => ?_, fun _ => ?_, trivial⟩
    · cases hplan.symm.trans h
    · decide +kernel
    · show ListGuarded _ _
      convert hlist using 1 <;> decide +kernel
    · show TakesDigits _
      decide +kernel
    · show IsObject _
      convert hview using 1
      decide +kernel
    · show IsObject _
      convert hclosed using 1
      decide +kernel
  · exact fun _ => Terminal.encodes_ascii (.of_all (by decide +kernel))

/-- The steps of a run that is aborted by what is printed after the merge. -/
def abortedSteps : Trace :=
  sampleVerification ++ [prints (.push "feature/7-redis") [],
    prints (.prList "feature/7-redis" "main") "[]",
    prints (.prCreate "main" "feature/7-redis" "feat: redis"
      (prBody ⟨7, "main", "redis", "harness/plan.json"⟩ verifiedSha))
      "https://github.com/coffee/coffee-order-system/pull/12",
    prints (.prChecks 12) [], prints (.prMerge 12) [], prints (.prView 12) "rate limited"]

/-- After the merge `gh pr view` exits with zero and prints no JSON text. -/
theorem not_finalize_diagnosed :
    ¬∀ [Runtime] (terminal : Terminal) (plan_path : Str) (merge : Bool) (title : Option Str)
      (steps : Trace)
      (outcome : Except Failure FinalizationResult),
      (finalize plan_path merge title).replay steps = some outcome →
        Diagnosed terminal outcome := by
  intro h
  let _ := sampleRuntime
  have hdiagnosed := h utf8Terminal "harness/plan.json" true none abortedSteps
    (.error (.raised ⟨.JSONDecodeError, "Expecting value: line 1 column 1 (char 0)"⟩))
    (by decide +kernel)
  rcases hdiagnosed with ⟨result, printed, h, -⟩ | ⟨message, h, -⟩
  · exact nomatch h
  · exact nomatch h

end Samples

end CoffeeOrder.Publish
