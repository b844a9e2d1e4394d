import CoffeeOrder.Kit.Effects
import CoffeeOrder.Publish.Races

/-!
# The issue link of a pull request

`create_or_prepare_pr` writes the body of a new pull request, and adds the link to the issue to
the body of an existing one unless the body contains its text. The number of the issue may be
the beginning of another one.
-/

namespace CoffeeOrder.Publish

open Kit Python

/-- `Closes #n`. -/
def closes (issue : ℤ) : Str := "Closes #" ++ Str.ofInt issue

/-- The text contains `Closes #n`, not followed by another digit. -/
def LinksIssue (issue : ℤ) (text : Str) : Prop :=
  ∃ before_ after_, text = before_ ++ (closes issue ++ after_) ∧
    ∀ c ∈ after_.head?, c.isDigit = false

/-- The open pull request from the branch to its base. -/
structure OpenPr where
  number : ℤ
  /-- None if it is missing. -/
  body : Option Str

/-- The body of the pull request, if one is open. -/
def bodyOf (pr : Option OpenPr) : Option Str := pr.bind OpenPr.body

/-- The effect of `gh pr edit`. -/
def OpenPr.edit (pr : OpenPr) (number : ℤ) (body : Str) : OpenPr :=
  if pr.number = number then { pr with body := some body } else pr

section Runs

variable [Runtime]

/-- The listed value is the pull request. -/
def OpenPr.ListedAs (pr : OpenPr) (item : Json) : Prop :=
  (∃ entries, item = .obj entries) ∧ item.get "number" = .ok (.int pr.number) ∧
    item.get "body" = .ok (pr.body.elim .null .str)

/-- The text lists the open pull request. -/
def Lists (pr : Option OpenPr) (raw : Str) : Prop :=
  ∃ items, Runtime.loads (raw.orElse "[]") = .ok (.arr items) ∧
    List.Forall₂ OpenPr.ListedAs pr.toList items

/-- What a command does to the open pull request. One that raises or fails may do anything. -/
def Hosts : (op : Op) → op.Answer → Option OpenPr → Option OpenPr → Prop
  | .run command, .ok result, pr, pr' => result.returncode = 0 → match command with
    | .prList _ _ => pr' = pr ∧ Lists pr result.stdout.strip
    | .prCreate _ _ _ body => pr = none ∧ ∃ number, pr' = some ⟨number, some body⟩
    | .prEdit number body => pr' = pr.map fun pr => pr.edit number body
    | .push _ | .prReady _ => pr' = pr
    | _ => True
  | _, _, _, _ => True

/-- The text with the link behind it. -/
def withLink (issue : ℤ) (text : Str) : Str := text.rstrip ++ "\n\n" ++ closes issue ++ "\n"

/-- The body that an existing pull request has in the end. -/
def linkedText (issue : ℤ) (body : Option Str) : Str :=
  if (body.getD []).contains (closes issue) then body.getD [] else withLink issue (body.getD [])

/-- The body that a run leaves. -/
def publishedBody (manifest : Manifest) (head : Str) : Option OpenPr → Str
  | none => prBody manifest head
  | some pr => linkedText manifest.issue pr.body

section Functions

variable {pr : Option OpenPr}

/-- Looking at a value changes no pull request. -/
theorem orRaise_hosts {α : Type} {x : Except Exc α} :
    (orRaise x).Ensures Hosts (Script.returning fun pr' a => pr' = pr ∧ x = .ok a) pr := by
  refine Script.keeps_ofExcept.mpr fun a ha => ⟨rfl, ?_⟩
  cases x with
  | ok b => exact congrArg _ (Except.ok.inj ha)
  | error e => exact nomatch ha

/-- A command that does not exit with zero raises. -/
theorem commandOutput_hosts {command : Command} {description : Str} :
    (commandOutput command description).Ensures Hosts (Script.returning fun pr' output =>
      ∃ result : CompletedProcess, output = result.stdout.strip ∧ result.returncode = 0 ∧
        Hosts (.run command) (.ok result) pr pr') pr := by
  refine Script.ensures_ask fun answer pr' hanswer => ?_
  cases answer with
  | error e => exact Script.returning_error
  | ok result =>
    show (if result.returncode ≠ 0 then _ else _ : PublishM Str).Ensures Hosts _ pr'
    by_cases hzero : result.returncode = 0
    · rw [if_neg (not_not_intro hzero)]
      exact Script.returning_ok.mpr ⟨result, rfl, hzero, hanswer⟩
    · rw [if_pos hzero]
      exact Script.returning_error

/-- A new pull request has the body that the script writes. -/
theorem createPr_hosts {manifest : Manifest} {branch head : Str} {title : Option Str} :
    (createPr manifest branch head title).Ensures Hosts
      (Script.returning fun pr' _ => bodyOf pr' = some (prBody manifest head)) pr := by
  refine commandOutput_hosts.bind_returning ?_
  rintro pr' _ ⟨result, rfl, hzero, hhosts⟩
  obtain ⟨-, number, rfl⟩ := hhosts hzero
  cases pullNumber result.stdout.strip with
  | none => exact Script.returning_error
  | some digits =>
    refine orRaise_hosts.bind_returning ?_
    rintro _ created ⟨rfl, -⟩
    exact Script.returning_ok.mpr rfl

omit [Runtime] in
/-- The empty text links no issue. -/
theorem not_contains_closes (issue : ℤ) : ¬Str.contains [] (closes issue) = true := fun h =>
  absurd (List.eq_nil_of_infix_nil (of_decide_eq_true h)) (List.cons_ne_nil _ _)

omit [Runtime] in
/-- The link is added to what is listed as the body, or the body stays. -/
theorem linkedBody_listed {issue : ℤ} {body updated : Option Str}
    (h : linkedBody issue (body.elim .null .str) = .ok updated) :
    match updated with
    | none => body = some (linkedText issue body)
    | some text => text = linkedText issue body := by
  cases body with
  | none =>
    obtain rfl := Except.ok.inj h
    exact (if_neg (not_contains_closes issue)).symm
  | some text =>
    by_cases hcontains : text.contains (closes issue) = true
    · have hupdated : updated = none := (Except.ok.inj h).symm.trans (if_pos hcontains)
      subst hupdated
      exact congrArg some (if_pos hcontains).symm
    · have hupdated : updated = some (withLink issue text) :=
        (Except.ok.inj h).symm.trans (if_neg hcontains)
      subst hupdated
      exact (if_neg hcontains).symm

/-- The link is added to the body of an existing pull request if its text does not occur. -/
theorem linkIssue_hosts {issue : ℤ} {existing : OpenPr} {item : Json}
    (hlisted : existing.ListedAs item) :
    (linkIssue issue existing.number item).Ensures Hosts
      (Script.returning fun pr' _ => bodyOf pr' = some (linkedText issue existing.body))
      (some existing) := by
  obtain ⟨-, -, hbody⟩ := hlisted
  refine orRaise_hosts.bind_returning ?_
  rintro _ found ⟨rfl, hfound⟩
  obtain rfl := Except.ok.inj (hbody.symm.trans hfound)
  refine orRaise_hosts.bind_returning ?_
  rintro _ updated ⟨rfl, hupdated⟩
  have hupdate := linkedBody_listed hupdated
  cases updated with
  | none => exact Script.returning_ok.mpr hupdate
  | some updated =>
    obtain rfl : updated = linkedText issue existing.body := hupdate
    refine commandOutput_hosts.bind_returning ?_
    rintro pr' _ ⟨result, rfl, hzero, hhosts⟩
    obtain rfl := hhosts hzero
    exact Script.returning_ok.mpr (by simp [bodyOf, OpenPr.edit])

/-- Marking a pull request as ready keeps its body. -/
theorem markReady_hosts {number : ℤ} {item : Json} :
    (markReady number item).Ensures Hosts (Script.returning fun pr' _ => pr' = pr) pr := by
  refine orRaise_hosts.bind_returning ?_
  rintro _ draft ⟨rfl, -⟩
  split
  · refine commandOutput_hosts.bind_returning ?_
    rintro pr' _ ⟨result, rfl, hzero, hhosts⟩
    exact Script.returning_ok.mpr (hhosts hzero)
  · exact Script.returning_ok.mpr rfl

/-- An existing pull request keeps its body, with a link to the issue added if it has none. -/
theorem preparePr_hosts {manifest : Manifest} {head : Str} {existing : OpenPr} {item : Json}
    (hlisted : existing.ListedAs item) :
    (preparePr manifest head item).Ensures Hosts
      (Script.returning fun pr' _ => bodyOf pr' = some (linkedText manifest.issue existing.body))
      (some existing) := by
  refine orRaise_hosts.bind_returning ?_
  rintro _ number ⟨rfl, hnumber⟩
  obtain rfl := Except.ok.inj (hlisted.2.1.symm.trans hnumber)
  refine orRaise_hosts.bind_returning ?_
  rintro _ url ⟨rfl, -⟩
  refine orRaise_hosts.bind_returning ?_
  rintro _ remote_head ⟨rfl, -⟩
  cases url with
  | str url =>
    cases hhead : remote_head.isStr head with
    | false => exact Script.returning_error
    | true =>
      refine (linkIssue_hosts hlisted).bind_returning fun pr' _ hbody => ?_
      refine markReady_hosts.bind_returning ?_
      rintro _ _ rfl
      exact Script.returning_ok.mpr hbody
  | _ => exact Script.returning_error

/-- Reading the list of pull requests changes none. -/
theorem parsePrList_hosts {raw : Str} :
    (parsePrList raw).Ensures Hosts (Script.returning fun pr' items =>
      pr' = pr ∧ Runtime.loads (raw.orElse "[]") = .ok (.arr items)) pr := by
  rw [parsePrList]
  cases hloads : Runtime.loads (raw.orElse "[]") with
  | error e =>
    dsimp only
    split <;> exact Script.returning_error
  | ok payload =>
    cases payload with
    | arr items =>
      simp only [Script.pure_bind]
      split
      · exact Script.returning_error
      · exact Script.returning_ok.mpr ⟨rfl, rfl⟩
    | _ => exact Script.returning_error

/-- **The body after a run.** -/
theorem createOrPreparePr_hosts {manifest : Manifest} {branch head : Str} {title : Option Str} :
    (createOrPreparePr manifest branch head title).Ensures Hosts
      (Script.returning fun pr' _ => bodyOf pr' = some (publishedBody manifest head pr)) pr := by
  refine commandOutput_hosts.bind_returning ?_
  rintro _ _ ⟨pushed, rfl, hzero, hhosts⟩
  obtain rfl := hhosts hzero
  refine commandOutput_hosts.bind_returning ?_
  rintro _ _ ⟨listed, rfl, hzero, hhosts⟩
  obtain ⟨rfl, items, hloads, hitems⟩ := hhosts hzero
  refine parsePrList_hosts.bind_returning ?_
  rintro pr found ⟨rfl, hfound⟩
  obtain rfl : items = found := Json.arr.inj (Except.ok.inj (hloads.symm.trans hfound))
  cases pr with
  | none =>
    obtain rfl := List.forall₂_nil_left_iff.mp hitems
    exact createPr_hosts
  | some existing =>
    obtain ⟨item, rest, hlisted, hrest, rfl⟩ := List.forall₂_cons_left_iff.mp hitems
    obtain rfl := List.forall₂_nil_left_iff.mp hrest
    exact preparePr_hosts hlisted

end Functions

end Runs

section Texts

/-- A text that links the issue has the words for it. -/
theorem LinksIssue.contains {issue : ℤ} {text : Str} (h : LinksIssue issue text) :
    text.contains (closes issue) = true := by
  obtain ⟨before_, after_, rfl, -⟩ := h
  exact decide_eq_true ⟨before_, after_, by rw [List.append_assoc]⟩

/-- What follows the link begins with a new line. -/
theorem LinksIssue.of_newline (issue : ℤ) (before_ after_ : Str) :
    LinksIssue issue (before_ ++ (closes issue ++ ("\n" ++ after_))) := by
  refine ⟨before_, _, rfl, fun c hc => ?_⟩
  obtain rfl := Option.mem_some.mp hc
  rfl

/-- The added line links the issue. -/
theorem linksIssue_withLink (issue : ℤ) (text : Str) : LinksIssue issue (withLink issue text) := by
  have h := LinksIssue.of_newline issue (text.rstrip ++ "\n\n") []
  rwa [List.append_nil, ← List.append_assoc] at h

/-- The body that the script writes links the issue. -/
theorem linksIssue_prBody [Runtime] (manifest : Manifest) (head : Str) :
    LinksIssue manifest.issue (prBody manifest head) := by
  have hlink : ("- 연결 이슈: Closes #" : Str) = "- 연결 이슈: " ++ "Closes #" := by decide
  have hbody : prBody manifest head =
      ("## 변경 목적" : Str) ++ ("\n" ++ ("\n" ++ ("- 연결 이슈: " : Str))) ++
      (closes manifest.issue ++ ("\n" ++ Str.join "\n" ["- 해결하려는 문제: " ++ manifest.objective,
        "", "## 하네스 검증", "", "- Manifest: `" ++ manifest.relative_path ++ "`",
        "- Evaluate: `PASS`", "- Candidate HEAD: `" ++ head ++ "`"])) := by
    have hempty : ("" : Str) = [] := rfl
    rw [prBody, hlink]
    simp [Str.join, List.intercalate, closes, hempty]
  exact hbody ▸ LinksIssue.of_newline ..

/-- A text without trailing white space is a beginning of the text. -/
theorem rstrip_prefix (text : Str) : text.rstrip <+: text := by
  have h := List.reverse_prefix.mpr (List.dropWhile_suffix CodePoint.isSpace (l := text.reverse))
  rwa [List.reverse_reverse] at h

/-- Adding a link keeps the text before it. -/
theorem rstrip_prefix_linkedText (issue : ℤ) (text : Str) :
    text.rstrip <+: linkedText issue (some text) := by
  rw [linkedText, Option.getD_some]
  split
  · exact rstrip_prefix text
  · rw [withLink, List.append_assoc, List.append_assoc]
    exact List.prefix_append ..

end Texts

section Bodies

variable [Runtime]

/-- What a run that returns leaves: the body links the issue, what the body was before is kept
but for white space at its end, and further runs leave the body as it is. -/
structure BodyPublished (manifest : Manifest) (branch : Str) (pr pr' : Option OpenPr) : Prop where
  linked : ∃ body, bodyOf pr' = some body ∧ LinksIssue manifest.issue body
  kept : ∀ old, bodyOf pr = some old → ∃ body, bodyOf pr' = some body ∧ old.rstrip <+: body
  repeated : ∀ head title steps last result, Script.Leads Hosts steps pr' last →
    (createOrPreparePr manifest branch head title).replay steps = some (.ok result) →
      bodyOf last = bodyOf pr'

/-- If the text of the link occurs in the body, it does so as a link to the issue. -/
def Linkable (issue : ℤ) (pr : Option OpenPr) : Prop :=
  ∀ old, bodyOf pr = some old → old.contains (closes issue) = true → LinksIssue issue old

/-- If the body found allows it, the published body links the issue. -/
theorem linksIssue_publishedBody {manifest : Manifest} {head : Str} {pr : Option OpenPr}
    (h : Linkable manifest.issue pr) :
    LinksIssue manifest.issue (publishedBody manifest head pr) := by
  cases pr with
  | none => exact linksIssue_prBody manifest head
  | some existing =>
    obtain ⟨number, body⟩ := existing
    rw [publishedBody, linkedText]
    by_cases hcontains : (body.getD []).contains (closes manifest.issue) = true
    · rw [if_pos hcontains]
      cases body with
      | none => exact absurd hcontains (not_contains_closes _)
      | some text => exact h text rfl hcontains
    · rw [if_neg hcontains]
      exact linksIssue_withLink ..

/-- **The body of a published pull request** links the issue, keeps its text and stays the same
in further runs if and only if it did not contain the text of the link as a part of a link to
another issue only. -/
theorem published_body_iff (manifest : Manifest) (branch head : Str) (title : Option Str)
    (steps : Trace) (pr pr' : Option OpenPr) (result : ℤ × Str)
    (hleads : Script.Leads Hosts steps pr pr')
    (hreturns : (createOrPreparePr manifest branch head title).replay steps = some (.ok result)) :
    BodyPublished manifest branch pr pr' ↔ Linkable manifest.issue pr := by
  have hbody : bodyOf pr' = some (publishedBody manifest head pr) :=
    createOrPreparePr_hosts.replay hleads hreturns _ rfl
  constructor
  · rintro ⟨⟨body, hpublished, hlinks⟩, -, -⟩ old hold hcontains
    obtain ⟨existing, rfl, htext⟩ := Option.bind_eq_some_iff.mp hold
    have hkept : publishedBody manifest head (some existing) = old := by
      rw [publishedBody, linkedText, htext, Option.getD_some, if_pos hcontains]
    rw [hbody, hkept, Option.some.injEq] at hpublished
    exact hpublished ▸ hlinks
  · intro hlinkable
    have hlinks : LinksIssue manifest.issue (publishedBody manifest head pr) :=
      linksIssue_publishedBody hlinkable
    refine ⟨⟨_, hbody, hlinks⟩, fun old hold => ⟨_, hbody, ?_⟩, ?_⟩
    · obtain ⟨existing, rfl, htext⟩ := Option.bind_eq_some_iff.mp hold
      rw [publishedBody, htext]
      exact rstrip_prefix_linkedText manifest.issue old
    · intro head' title' steps' last result' hleads' hreturns'
      have hlast : bodyOf last = some (publishedBody manifest head' pr') :=
        createOrPreparePr_hosts.replay hleads' hreturns' _ rfl
      obtain ⟨published, rfl, hpublished⟩ := Option.bind_eq_some_iff.mp hbody
      rw [hlast, hbody, publishedBody, linkedText, hpublished, Option.getD_some,
        if_pos hlinks.contains]

end Bodies

namespace Linking

/-- An open pull request with the given body, as GitHub lists it. -/
def listText (body : Str) : Str :=
  "[\x7b\"number\": 12, \"url\": \"https://github.com/coffee/coffee-order-system/pull/12\"," ++
    " \"isDraft\": false, \"headRefOid\": \"" ++ verifiedSha ++ "\", \"body\": \"" ++ body ++
    "\"\x7d]"

/-- The value that is listed. -/
def listItem (body : Str) : Json :=
  .obj [("number", .int 12), ("url", .str "https://github.com/coffee/coffee-order-system/pull/12"),
    ("isDraft", .bool false), ("headRefOid", .str verifiedSha), ("body", .str body)]

/-- A runtime that decodes the list. -/
@[reducible] def listRuntime (body : Str) : Runtime :=
  { sampleRuntime with
    loads := fun text =>
      if text = listText body then .ok (.arr [listItem body]) else sampleRuntime.loads text }

/-- The sample manifest. -/
def manifest : Manifest := ⟨1, "main", "redis", "harness/plan.json"⟩

/-- The push and the list. -/
def steps (body : Str) : Trace :=
  [prints (.push "feature/1-redis") [],
    prints (.prList "feature/1-redis" "main") (listText body)]

/-- The printed list shows the one pull request with this body. -/
theorem listed (body : Str) (h : (listText body ++ "\n").strip = listText body) :
    @Lists (listRuntime body) (some ⟨12, some body⟩) (listText body ++ "\n").strip := by
  let _ := listRuntime body
  rw [h]
  refine ⟨[listItem body], if_pos rfl, .cons ⟨⟨_, rfl⟩, rfl, rfl⟩ .nil⟩

end Linking

/-- A body without a link is edited. -/
theorem published_body_iff_edited :
    letI := Linking.listRuntime "Part of #7."
    BodyPublished Linking.manifest "feature/1-redis" (some ⟨12, some "Part of #7."⟩)
      (some ⟨12, some "Part of #7.\n\nCloses #1\n"⟩) := by
  let _ := Linking.listRuntime "Part of #7."
  refine (published_body_iff Linking.manifest "feature/1-redis" verifiedSha none
    (Linking.steps "Part of #7." ++ [prints (.prEdit 12 "Part of #7.\n\nCloses #1\n") []]) _ _
    (12, "https://github.com/coffee/coffee-order-system/pull/12") ?_ ?_).mpr ?_
  · exact ⟨_, fun _ => rfl, _, fun _ => ⟨rfl, Linking.listed _ (by decide +kernel)⟩, _,
      fun _ => rfl, rfl⟩
  · decide +kernel
  · rintro old hold hcontains
    obtain rfl := Option.some.inj hold
    exact absurd hcontains (by decide +kernel)

/-- A body that closes issue 12 is left without a link to issue 1. -/
theorem not_published_body :
    ¬∀ [Runtime] (manifest : Manifest) (branch head : Str) (title : Option Str) (steps : Trace)
      (pr pr' : Option OpenPr) (result : ℤ × Str), Script.Leads Hosts steps pr pr' →
      (createOrPreparePr manifest branch head title).replay steps = some (.ok result) →
      BodyPublished manifest branch pr pr' := by
  intro h
  let _ := Linking.listRuntime "Closes #12"
  have hpublished := h Linking.manifest "feature/1-redis" verifiedSha none
    (Linking.steps "Closes #12") (some ⟨12, some "Closes #12"⟩) (some ⟨12, some "Closes #12"⟩)
    (12, "https://github.com/coffee/coffee-order-system/pull/12")
    ⟨_, fun _ => rfl, _, fun _ => ⟨rfl, Linking.listed _ (by decide +kernel)⟩, rfl⟩
    (by decide +kernel)
  obtain ⟨body, hbody, before_, after_, heq, hdigit⟩ := hpublished.linked
  obtain rfl := Option.some.inj hbody
  cases before_ with
  | nil =>
    have hsplit : ("Closes #12" : Str) = closes 1 ++ [0x32] := by decide
    obtain rfl := List.append_cancel_left (hsplit.symm.trans heq)
    exact absurd (hdigit 0x32 rfl) (by decide)
  | cons c rest =>
    have hlength := congrArg List.length heq
    have hclosed : ("Closes #12" : Str).length = 10 := by decide
    have hcloses : (closes 1).length = 9 := by decide
    simp only [List.length_append, List.length_cons, hclosed] at hlength
    have hrest : rest.length = 0 := by
      have hissue : (closes Linking.manifest.issue).length = 9 := hcloses
      omega
    obtain rfl := List.length_eq_zero_iff.mp hrest
    have hsecond : some 0x6c = some (0x43 : CodePoint) :=
      congrArg (fun text : Str => (text.drop 1).head?) heq
    exact absurd hsecond (by decide)

end CoffeeOrder.Publish
