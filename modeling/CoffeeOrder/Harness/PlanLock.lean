import CoffeeOrder.Harness.Evidence
import CoffeeOrder.Harness.Gate
import CoffeeOrder.Harness.Git

/-!
# The plan lock

`prepare` writes what it has seen of the plan and of Git to a file; `evaluate` reads it
back and compares. Writer and reader check the same strings with different code.
-/

namespace CoffeeOrder.Harness

open Kit Python

/-- `PlanLock`. -/
structure PlanLock where
  schema_version : ℤ
  issue : ℤ
  plan_path : Str
  plan_hash : Str
  target_branch : Str
  branch : Str
  base_tip_sha : Str
  merge_base_sha : Str
  deriving DecidableEq

/-- `PLAN_LOCK_FIELDS`. -/
def planLockFields : List Str :=
  ["schemaVersion", "issue", "planPath", "planHash", "targetBranch", "branch", "baseTipSha",
    "mergeBaseSha"]

/-- `plan_lock_payload`. -/
def planLockPayload (lock : PlanLock) : Json :=
  .obj [("schemaVersion", .int lock.schema_version), ("issue", .int lock.issue),
    ("planPath", .str lock.plan_path), ("planHash", .str lock.plan_hash),
    ("targetBranch", .str lock.target_branch), ("branch", .str lock.branch),
    ("baseTipSha", .str lock.base_tip_sha), ("mergeBaseSha", .str lock.merge_base_sha)]

/-- `make_plan_lock`. -/
def makePlanLock (plan : Plan) (context : GitContext) : PlanLock where
  schema_version := 1
  issue := plan.issue
  plan_path := plan.relative_path
  plan_hash := plan.plan_hash
  target_branch := plan.target_branch
  branch := context.branch
  base_tip_sha := context.base_tip_sha
  merge_base_sha := context.merge_base_sha

/-- `_plan_lock_error`. -/
def planLockError (reason : Str) : Failure := .HarnessViolation .REPLAN_REQUIRED "plan.lock" reason

/-- `_lock_string`. -/
def lockString (raw : Json) (field : Str) : Except Failure Str := do
  let .str value := raw | throw (planLockError (field ++ "는 빈 값이 아닌 문자열이어야 합니다."))
  raiseIf (value = []) (planLockError (field ++ "는 빈 값이 아닌 문자열이어야 합니다."))
  raiseIf (value ≠ value.strip ∨ value.any CodePoint.isControl)
    (planLockError (field ++ "에 신뢰할 수 없는 whitespace가 있습니다."))
  return value

/-- What `_lock_string` accepts. -/
structure IsLockString (value : Str) : Prop where
  ne_nil : value ≠ []
  strip_eq : value = value.strip
  no_control : ∀ c ∈ value, ¬c.isControl = true

/-- The accepted strings of a lock are not empty and have no white space around them. -/
theorem lockString_eq_ok_iff {raw : Json} {field value : Str} :
    lockString raw field = .ok value ↔ raw = .str value ∧ IsLockString value := by
  unfold lockString
  cases raw with
  | str s =>
    refine Checked.raiseIf_bind_eq_ok.trans ?_
    rw [Checked.raiseIf_bind_eq_ok, Checked.pure_eq_ok, not_or, not_not, List.any_eq_true,
      Json.str.injEq]
    constructor
    · rintro ⟨hne, ⟨hstrip, hcontrol⟩, rfl⟩
      exact ⟨rfl, hne, hstrip, fun c hc hc' => hcontrol ⟨c, hc, hc'⟩⟩
    · rintro ⟨rfl, hne, hstrip, hcontrol⟩
      exact ⟨hne, ⟨hstrip, fun ⟨c, hc, hc'⟩ => hcontrol c hc hc'⟩, rfl⟩
  | _ => exact iff_of_false nofun nofun

/-- A malformed string raises a violation of the lock. -/
theorem lockString_raises {P : Failure → Prop} (h : ∀ reason, P (planLockError reason)) (raw : Json)
    (field : Str) : ErrorsIn P (lockString raw field) := by
  unfold lockString
  cases raw with
  | str value =>
    exact (ErrorsIn.raiseIf (h _)).bind fun _ _ => (ErrorsIn.raiseIf (h _)).bind fun _ _ => .pure
  | _ => exact ErrorsIn.error.mpr (h _)

/-- The strings of a lock, by field. -/
def PlanLock.strings (lock : PlanLock) : List (Str × Str) :=
  [("planPath", lock.plan_path), ("planHash", lock.plan_hash), ("targetBranch", lock.target_branch),
    ("branch", lock.branch), ("baseTipSha", lock.base_tip_sha),
    ("mergeBaseSha", lock.merge_base_sha)]

/-- The lock whose fields `load_plan_lock` has read before it looks at the strings. -/
structure ReadsLock (payload : JsonObject) (lock : PlanLock) : Prop where
  fields : payload.hasFields planLockFields
  version_item : payload.item "schemaVersion" = .ok (.int lock.schema_version)
  version_one : lock.schema_version = 1
  issue_item : payload.item "issue" = .ok (.int lock.issue)
  issue_pos : 1 ≤ lock.issue
  strings : ∀ entry ∈ lock.strings,
    payload.item entry.1 = .ok (.str entry.2) ∧ IsLockString entry.2

section Reading

variable [ByteRuntime]

/-- `load_plan_lock`, from the bytes of the file. -/
def parsePlanLock (raw : Bytes) : Except Failure PlanLock := do
  let payload ← (parseJsonObject raw "plan.lock" "plan lock").mapError
    (.restate fun _ _ reason => planLockError reason)
  raiseIf (¬payload.hasFields planLockFields)
    (planLockError ("plan lock 필드가 정확하지 않습니다: unknown=" ++
      listRepr (payload.unknown planLockFields) ++ ", missing=" ++
      listRepr (payload.missing planLockFields)))
  let schema_version ← schemaVersionOne (planLockError "schemaVersion은 정수 1이어야 합니다.")
    (← payload.item "schemaVersion")
  let issue ← positiveIssue (planLockError "issue는 1 이상의 정수여야 합니다.")
    (← payload.item "issue")
  let plan_path ← lockString (← payload.item "planPath") "planPath"
  let plan_hash ← lockString (← payload.item "planHash") "planHash"
  let target_branch ← lockString (← payload.item "targetBranch") "targetBranch"
  let branch ← lockString (← payload.item "branch") "branch"
  let base_tip_sha ← lockString (← payload.item "baseTipSha") "baseTipSha"
  let merge_base_sha ← lockString (← payload.item "mergeBaseSha") "mergeBaseSha"
  let path_matches ← orRaise (planPathMatchesIssue plan_path issue)
  raiseIf (!path_matches) (planLockError
    ("planPath는 harness/plans/\x7bissue\x7d.json 또는 " ++
      "harness/plans/issue-\x7bissue\x7d-<slug>.json이어야 합니다."))
  raiseIf (target_branch ≠ "main") (planLockError "targetBranch는 main이어야 합니다.")
  (validateBranch branch issue).mapError (.restate fun _ _ reason => planLockError reason)
  raiseIf (!isPlanHash plan_hash) (planLockError "planHash는 lowercase 64자리 hex여야 합니다.")
  raiseIf (!isSha base_tip_sha) (planLockError "baseTipSha는 lowercase 40자리 SHA여야 합니다.")
  raiseIf (!isSha merge_base_sha) (planLockError "mergeBaseSha는 lowercase 40자리 SHA여야 합니다.")
  return {
    schema_version, issue, plan_path, plan_hash, target_branch, branch, base_tip_sha
    merge_base_sha }

/-- `load_plan_lock`. -/
def loadPlanLock (path : Path) : HarnessM PlanLock := do
  match ← ask (.readBytes path) with
  | .ok raw => liftM (parsePlanLock raw)
  | .error error =>
    if error.isOSError then
      throw (planLockError ("plan lock을 읽을 수 없습니다: " ++ error.text))
    else throw (.raised error)

end Reading

/-- `validate_plan_lock`. -/
def validatePlanLock (lock : PlanLock) (plan : Plan) (context : GitContext) :
    Except Failure Unit := do
  let comparisons : List (Str × Bool) :=
    [("issue", lock.issue ≠ plan.issue), ("plan path", lock.plan_path ≠ plan.relative_path),
      ("plan hash", lock.plan_hash ≠ plan.plan_hash),
      ("target branch", lock.target_branch ≠ plan.target_branch),
      ("branch", lock.branch ≠ context.branch),
      ("base tip", lock.base_tip_sha ≠ context.base_tip_sha),
      ("merge-base", lock.merge_base_sha ≠ context.merge_base_sha)]
  let changed := (comparisons.filter Prod.snd).map Prod.fst
  raiseIf (changed ≠ []) (planLockError ("prepare 이후 변경됨: " ++ Str.join ", " changed))

/-- The seven fields that a lock fixes. -/
structure PlanLock.Agrees (lock : PlanLock) (plan : Plan) (context : GitContext) : Prop where
  issue : lock.issue = plan.issue
  plan_path : lock.plan_path = plan.relative_path
  plan_hash : lock.plan_hash = plan.plan_hash
  target_branch : lock.target_branch = plan.target_branch
  branch : lock.branch = context.branch
  base_tip_sha : lock.base_tip_sha = context.base_tip_sha
  merge_base_sha : lock.merge_base_sha = context.merge_base_sha

/-- **The comparison** is exact. -/
theorem validatePlanLock_eq_ok {lock : PlanLock} {plan : Plan} {context : GitContext} :
    validatePlanLock lock plan context = .ok () ↔ lock.Agrees plan context := by
  rw [validatePlanLock, Checked.raiseIf_eq_ok, not_not, List.map_eq_nil_iff,
    List.filter_eq_nil_iff]
  simp only [List.forall_mem_cons, List.not_mem_nil, decide_eq_true_eq, not_not, ne_eq,
    false_implies, implies_true, and_true]
  exact ⟨fun ⟨h1, h2, h3, h4, h5, h6, h7⟩ => ⟨h1, h2, h3, h4, h5, h6, h7⟩,
    fun ⟨h1, h2, h3, h4, h5, h6, h7⟩ => ⟨h1, h2, h3, h4, h5, h6, h7⟩⟩

section Refusals

/-- A violation of the lock does not claim to pass. -/
theorem planLockError_rejects {reason : Str} : (planLockError reason).Rejects :=
  Failure.rejects_of_ne

/-- A lock that does not fit is not claimed to pass. -/
theorem validatePlanLock_rejects (lock : PlanLock) (plan : Plan) (context : GitContext) :
    ErrorsIn Failure.Rejects (validatePlanLock lock plan context) :=
  ErrorsIn.raiseIf planLockError_rejects

variable [ByteRuntime]

/-- What the loader of the lock can raise: its violation, and what `json.loads` and `int` raise. -/
theorem parsePlanLock_raises {P : Failure → Prop} (h : ∀ reason, P (planLockError reason))
    {raw : Bytes}
    (hloads : ErrorsIn P ((parseJsonObject raw "plan.lock" "plan lock").mapError
      (.restate fun _ _ reason => planLockError reason)))
    (hpath : ∀ payload lock, parseJsonObject raw "plan.lock" "plan lock" = .ok payload →
      ReadsLock payload lock →
        ErrorsIn P (orRaise (planPathMatchesIssue lock.plan_path lock.issue)))
    (hbranch : ∀ payload lock, parseJsonObject raw "plan.lock" "plan lock" = .ok payload →
      ReadsLock payload lock → planPathMatchesIssue lock.plan_path lock.issue = .ok true →
      lock.target_branch = "main" → ErrorsIn P ((validateBranch lock.branch lock.issue).mapError
        (.restate fun _ _ reason => planLockError reason))) :
    ErrorsIn P (parsePlanLock raw) := by
  have check {bad : Prop} [Decidable bad] {reason : Str} :
      ErrorsIn P (raiseIf bad (planLockError reason)) := ErrorsIn.raiseIf (h _)
  refine hloads.bind fun payload hpayload => check.bind fun _ hfields => ?_
  have hpayload := Checked.mapError_eq_ok.mp hpayload
  have hkeys := not_not.mp (Checked.raiseIf_eq_ok.mp hfields)
  have item {key : Str} (hkey : key ∈ planLockFields) : ErrorsIn P (payload.item key) :=
    item_raises ((hkeys key).mpr hkey)
  have string {key : Str} (hkey : key ∈ planLockFields) {β : Type} {f : Str → Except Failure β}
      (hf : ∀ value, payload.item key = .ok (.str value) ∧ IsLockString value →
        ErrorsIn P (f value)) :
      ErrorsIn P (do f (← lockString (← payload.item key) key)) :=
    (item hkey).bind fun raw hraw => (lockString_raises h _ _).bind fun value hvalue => by
      obtain ⟨rfl, hlock⟩ := lockString_eq_ok_iff.mp hvalue
      exact hf value ⟨hraw, hlock⟩
  refine (item (by decide)).bind fun rawVersion hrawVersion => ?_
  refine (schemaVersionOne_raises (h _) _).bind fun version hversion => ?_
  obtain ⟨rfl, rfl⟩ := schemaVersionOne_eq_ok_iff.mp hversion
  refine (item (by decide)).bind fun rawIssue hrawIssue => ?_
  refine (positiveIssue_raises (h _) _).bind fun issue hissue => ?_
  obtain ⟨rfl, hpos⟩ := positiveIssue_eq_ok_iff.mp hissue
  refine string (by decide) fun plan_path hplanPath => ?_
  refine string (by decide) fun plan_hash hplanHash => ?_
  refine string (by decide) fun target_branch htarget => ?_
  refine string (by decide) fun branch hbranch' => ?_
  refine string (by decide) fun base_tip_sha hbase => ?_
  refine string (by decide) fun merge_base_sha hmerge => ?_
  have hreads : ReadsLock payload ⟨1, issue, plan_path, plan_hash, target_branch, branch,
      base_tip_sha, merge_base_sha⟩ :=
    ⟨hkeys, hrawVersion, rfl, hrawIssue, hpos, by
      simp only [PlanLock.strings, List.forall_mem_cons]
      exact ⟨hplanPath, hplanHash, htarget, hbranch', hbase, hmerge, fun _ hmem => nomatch hmem⟩⟩
  refine (hpath _ _ hpayload hreads).bind fun path_matches hmatches => check.bind fun _ htrue => ?_
  refine check.bind fun _ hmain => ?_
  have hmatches' : planPathMatchesIssue plan_path issue = .ok true := by
    have hpass := Checked.raiseIf_eq_ok.mp htrue
    obtain rfl : path_matches = true := by simpa using hpass
    exact orRaise_eq_ok.mp hmatches
  have hmain' := not_not.mp (Checked.raiseIf_eq_ok.mp hmain)
  refine (hbranch _ _ hpayload hreads hmatches' hmain').bind fun _ _ => ?_
  exact check.bind fun _ _ => check.bind fun _ _ => check.bind fun _ _ => .pure

/-- A lock that cannot be read is not claimed to pass. -/
theorem parsePlanLock_rejects (raw : Bytes) : ErrorsIn Failure.Rejects (parsePlanLock raw) := by
  have restated (e : Failure) : (e.restate fun _ _ reason => planLockError reason).Rejects :=
    Failure.restate_rejects (fun _ _ _ => planLockError_rejects) e
  refine parsePlanLock_raises (fun _ => planLockError_rejects) ?_
    (fun _ _ _ _ => orRaise_rejects _) ?_
  · exact (parseJsonObject_rejects _ _ _).mapError fun e _ => restated e
  · exact fun _ _ _ _ _ _ => (validateBranch_rejects _ _).mapError fun e _ => restated e

/-- `load_plan_lock` is sound. -/
theorem sound_loadPlanLock (path : Path) : Sound (loadPlanLock path) := by
  refine (sound_ask (.readBytes path) trivial).bind fun answer => ?_
  cases answer with
  | ok raw => exact sound_lift (parsePlanLock_rejects raw)
  | error error => exact .ite planLockError_rejects trivial

end Refusals

/-- What the fields of a lock that can be read satisfy. -/
structure PlanLock.WellFormed (lock : PlanLock) : Prop where
  schema_version : lock.schema_version = 1
  issue_pos : 1 ≤ lock.issue
  path_issue : planPathMatchesIssue lock.plan_path lock.issue = .ok true
  target_main : lock.target_branch = "main"
  branch_issue : validateBranch lock.branch lock.issue = .ok ()
  plan_hash : isPlanHash lock.plan_hash = true
  base_tip_sha : isSha lock.base_tip_sha = true
  merge_base_sha : isSha lock.merge_base_sha = true

section Plain

/-- A nonempty string of visible ASCII characters. -/
structure IsPlain (s : Str) : Prop where
  ne_nil : s ≠ []
  visible : ∀ c ∈ s, 0x21 ≤ c.val ∧ c.val ≤ 0x7e

/-- Visible characters are no white space. -/
theorem isSpace_of_visible {c : CodePoint} (h : 0x21 ≤ c.val ∧ c.val ≤ 0x7e) :
    c.isSpace = false := by
  refine Bool.eq_false_iff.mpr fun hspace => ?_
  simp only [CodePoint.isSpace, Bool.or_eq_true, Bool.and_eq_true, decide_eq_true_eq, beq_iff_eq,
    Fin.le_def, Fin.ext_iff, Fin.coe_ofNat_eq_mod, Nat.reduceMod] at hspace
  omega

/-- Visible characters are no control characters. -/
theorem isControl_of_visible {c : CodePoint} (h : 0x21 ≤ c.val ∧ c.val ≤ 0x7e) :
    c.isControl = false := by
  refine Bool.eq_false_iff.mpr fun hcontrol => ?_
  simp only [CodePoint.isControl, Bool.or_eq_true, Bool.and_eq_true, decide_eq_true_eq,
    Fin.le_def, Fin.coe_ofNat_eq_mod, Nat.reduceMod] at hcontrol
  omega

/-- Nothing is stripped from plain text. -/
theorem IsPlain.strip_eq {s : Str} (h : IsPlain s) : s.strip = s := by
  have hkeep : ∀ t : Str, (∀ c ∈ t, c ∈ s) → t.dropWhile CodePoint.isSpace = t := by
    intro t ht
    cases t with
    | nil => rfl
    | cons c t =>
      have hc := isSpace_of_visible (h.visible c (ht c List.mem_cons_self))
      exact List.dropWhile_cons_of_neg (by simp [hc])
  rw [Str.strip, hkeep s fun _ hc => hc, Str.rstrip, hkeep _ fun _ hc => List.mem_reverse.mp hc,
    List.reverse_reverse]

/-- **The reader accepts** what is plain. -/
theorem IsPlain.lockString_eq {s : Str} (h : IsPlain s) (field : Str) :
    lockString (.str s) field = .ok s := by
  have hcontrol : s.any CodePoint.isControl = false := by
    rw [List.any_eq_false]
    exact fun c hc => by simp [isControl_of_visible (h.visible c hc)]
  refine Checked.raiseIf_bind_eq_ok.mpr ⟨h.ne_nil, Checked.raiseIf_bind_eq_ok.mpr ⟨?_, rfl⟩⟩
  simp [h.strip_eq, hcontrol]

/-- Plain text is ASCII. -/
theorem IsPlain.isAscii {s : Str} (h : IsPlain s) : JsonText.IsAscii s := by
  intro c hc
  have hvisible := h.visible c hc
  omega

/-- Visible characters only. -/
def Visible (s : Str) : Prop := ∀ c ∈ s, 0x21 ≤ c.val ∧ c.val ≤ 0x7e

/-- Two parts of visible characters. -/
theorem Visible.append {s t : Str} (hs : Visible s) (ht : Visible t) : Visible (s ++ t) := by
  intro c hc
  obtain hc | hc := List.mem_append.mp hc
  · exact hs c hc
  · exact ht c hc

/-- A test for visible characters. -/
theorem visible_of_all {s : Str} (h : s.all (fun c => 0x21 ≤ c.val ∧ c.val ≤ 0x7e) = true) :
    Visible s := by
  simpa [Visible] using h

/-- The characters of a slug are visible. -/
theorem visible_slugChar {c : CodePoint} (h : c.isSlugChar = true) :
    0x21 ≤ c.val ∧ c.val ≤ 0x7e := by
  simp only [CodePoint.isSlugChar, CodePoint.isDigit, Bool.or_eq_true, Bool.and_eq_true,
    decide_eq_true_eq, Fin.le_def, Fin.coe_ofNat_eq_mod, Nat.reduceMod] at h
  omega

/-- Digits are visible. -/
theorem visible_digit {c : CodePoint} (h : c.isDigit = true) : 0x21 ≤ c.val ∧ c.val ≤ 0x7e :=
  visible_slugChar (by rw [CodePoint.isSlugChar, h, Bool.true_or])

/-- Hexadecimal digits are visible. -/
theorem visible_hexDigit {c : CodePoint} (h : c.isHexDigit = true) :
    0x21 ≤ c.val ∧ c.val ≤ 0x7e := by
  simp only [CodePoint.isHexDigit, CodePoint.isDigit, Bool.or_eq_true, Bool.and_eq_true,
    decide_eq_true_eq, Fin.le_def, Fin.coe_ofNat_eq_mod, Nat.reduceMod] at h
  omega

/-- Hexadecimal strings of a fixed positive length are plain. -/
theorem isPlain_hex {s : Str} {length : ℕ} (hpos : 0 < length)
    (h : (s.length = length && s.all CodePoint.isHexDigit) = true) : IsPlain s := by
  simp only [Bool.and_eq_true, decide_eq_true_eq] at h
  refine ⟨List.ne_nil_of_length_pos (by omega), fun c hc => ?_⟩
  exact visible_hexDigit (List.all_eq_true.mp h.2 c hc)

/-- A slug is visible. -/
theorem isSlug_visible {s : Str} (h : isSlug s = true) : Visible s := by
  intro c hc
  obtain rfl | ⟨part, hpart, hc⟩ := mem_splitOn 0x2d hc
  · decide
  · have hall := List.all_eq_true.mp h part hpart
    simp only [Bool.and_eq_true] at hall
    exact visible_slugChar (List.all_eq_true.mp hall.2 c hc)

/-- The digits of an issue stand in front. -/
theorem issueDigits_eq_some {s digits : Str} (h : issueDigits s = some digits) :
    s.takeWhile CodePoint.isDigit = digits := by
  obtain ⟨-, hdigits⟩ := Option.ite_none_right_eq_some.mp h
  exact Option.some.inj hdigits

/-- The digits in front are visible. -/
theorem visible_takeWhile_digits (s : Str) : Visible (s.takeWhile CodePoint.isDigit) :=
  fun _ hc => visible_digit (List.mem_takeWhile_imp hc)

/-- A slug with an issue is the digits in front and a slug. -/
theorem issueOfSlug_eq_some {s digits : Str} (h : issueOfSlug s = some digits) :
    s.takeWhile CodePoint.isDigit = digits ∧
      ∃ slug, s = digits ++ (Str.ofString "-" ++ slug) ∧ isSlug slug = true := by
  obtain ⟨found, hfound, h⟩ := Option.bind_eq_some_iff.mp h
  obtain ⟨hrest, hdigits⟩ := Option.ite_none_right_eq_some.mp h
  obtain rfl := Option.some.inj hdigits
  have htake := issueDigits_eq_some hfound
  rw [Bool.and_eq_true] at hrest
  obtain ⟨slug, hslug⟩ := List.isPrefixOf_iff_prefix.mp hrest.1
  have hstarts : found <+: s := htake ▸ List.takeWhile_prefix _
  refine ⟨htake, slug, ?_, ?_⟩
  · rw [hslug]
    exact (List.prefix_iff_eq_append.mp hstarts).symm
  · have hvalid := hrest.2
    rwa [← hslug] at hvalid

/-- A slug with an issue is visible, and the digits stand in front. -/
theorem issueOfSlug_visible {s digits : Str} (h : issueOfSlug s = some digits) :
    Visible s ∧ s.takeWhile CodePoint.isDigit = digits := by
  obtain ⟨htake, slug, hs, hslug⟩ := issueOfSlug_eq_some h
  refine ⟨?_, htake⟩
  have hdigits : Visible digits := htake ▸ visible_takeWhile_digits s
  rw [hs]
  exact hdigits.append ((visible_of_all rfl).append (isSlug_visible hslug))

/-- A text is what stands before the middle, the middle and what stands after it. -/
theorem between_eq_some {s first last middle : Str} (h : s.between first last = some middle) :
    s = first ++ middle ++ last := by
  obtain ⟨hends, hmiddle⟩ := Option.ite_none_right_eq_some.mp h
  obtain rfl := Option.some.inj hmiddle
  rw [Bool.and_eq_true, Str.startsWith, Str.endsWith, List.isPrefixOf_iff_prefix,
    List.isSuffixOf_iff_suffix] at hends
  obtain ⟨⟨rest, rfl⟩, middle, hrest⟩ := hends
  rw [List.drop_left] at hrest ⊢
  rw [← hrest, Str.dropEnd, List.rdrop_append_length, List.append_assoc]

/-- A plan path of the older form is visible, and its issue is written in digits. -/
theorem legacyPlanIssue_spec {path digits : Str} (h : legacyPlanIssue path = some digits) :
    Visible path ∧ ∀ c ∈ digits, c.isDigit = true := by
  obtain ⟨name, hname, h⟩ := Option.bind_eq_some_iff.mp h
  obtain ⟨found, hfound, h⟩ := Option.bind_eq_some_iff.mp h
  obtain ⟨rfl, hdigits⟩ := Option.ite_none_right_eq_some.mp h
  obtain rfl := Option.some.inj hdigits
  have htake := issueDigits_eq_some hfound
  have hall : ∀ c ∈ found, c.isDigit = true := fun c hc => List.mem_takeWhile_imp (htake ▸ hc)
  rw [between_eq_some hname]
  refine ⟨?_, hall⟩
  exact ((visible_of_all rfl).append fun c hc => visible_digit (hall c hc)).append
    (visible_of_all rfl)

/-- A plan path of the newer form is visible, and its issue is written in digits. -/
theorem readablePlanIssue_spec {path digits : Str} (h : readablePlanIssue path = some digits) :
    Visible path ∧ ∀ c ∈ digits, c.isDigit = true := by
  obtain ⟨slug, hslug, h⟩ := Option.bind_eq_some_iff.mp h
  obtain ⟨hvisible, htake⟩ := issueOfSlug_visible h
  rw [between_eq_some hslug]
  refine ⟨((visible_of_all rfl).append hvisible).append (visible_of_all rfl), fun c hc => ?_⟩
  exact List.mem_takeWhile_imp (htake ▸ hc)

/-- A plan path that matches its issue is plain, and spells an issue that can be printed. -/
theorem planPathMatchesIssue_spec {path : Str} {issue : ℤ}
    (h : planPathMatchesIssue path issue = .ok true) :
    IsPlain path ∧ JsonText.intRepr issue = .ok (Str.ofInt issue) := by
  unfold planPathMatchesIssue at h
  cases hissue : (legacyPlanIssue path).or (readablePlanIssue path) with
  | none =>
    rw [hissue] at h
    exact nomatch h
  | some digits =>
    rw [hissue] at h
    obtain ⟨n, hn, hmatches⟩ := Checked.bind_eq_ok.mp h
    obtain rfl := of_decide_eq_true (Checked.pure_eq_ok.mp hmatches)
    have hspec : Visible path ∧ ∀ c ∈ digits, c.isDigit = true := by
      obtain hlegacy | ⟨-, hreadable⟩ := Option.or_eq_some_iff.mp hissue
      · exact legacyPlanIssue_spec hlegacy
      · exact readablePlanIssue_spec hreadable
    refine ⟨⟨?_, hspec.1⟩, JsonText.intRepr_of_intOfDigits hspec.2 hn⟩
    rintro rfl
    exact nomatch hissue

/-- A branch that passed is plain. -/
theorem validateBranch_spec {branch : Str} {issue : ℤ} (h : validateBranch branch issue = .ok ()) :
    IsPlain branch := by
  unfold validateBranch at h
  cases hissue : branchIssue branch with
  | none =>
    rw [hissue] at h
    exact nomatch h
  | some digits =>
    obtain ⟨kind, hkind, hslug⟩ := List.exists_of_findSome?_eq_some hissue
    obtain ⟨hstarts, hslug⟩ := Option.ite_none_right_eq_some.mp hslug
    obtain ⟨rest, rfl⟩ := List.isPrefixOf_iff_prefix.mp hstarts
    rw [List.drop_left] at hslug
    have hkinds : ∀ kind ∈ (["feature/", "fix/", "refactor/", "docs/"] : List Str),
        kind ≠ [] ∧ kind.all (fun c => 0x21 ≤ c.val ∧ c.val ≤ 0x7e) = true := by
      decide
    obtain ⟨hne, hvisible⟩ := hkinds kind hkind
    exact ⟨List.append_ne_nil_of_left_ne_nil hne _,
      (visible_of_all hvisible).append (issueOfSlug_visible hslug).1⟩

end Plain

section RoundTrip

/-- The entries of the payload in the order of their keys. -/
def sortedLockEntries (lock : PlanLock) : JsonObject :=
  [("baseTipSha", .str lock.base_tip_sha), ("branch", .str lock.branch), ("issue", .int lock.issue),
    ("mergeBaseSha", .str lock.merge_base_sha), ("planHash", .str lock.plan_hash),
    ("planPath", .str lock.plan_path), ("schemaVersion", .int lock.schema_version),
    ("targetBranch", .str lock.target_branch)]

/-- The keys of a lock are written in this order. -/
theorem sortKeys_planLockPayload (lock : PlanLock) :
    (planLockPayload lock).sortKeys = .obj (sortedLockEntries lock) := rfl

/-- A dictionary without duplicate keys is what was read. -/
theorem rejectDuplicateJsonKeys_keeps {pairs : List (Str × Json)} {value : Json}
    (h : rejectDuplicateJsonKeys pairs = .ok value) : value = .obj pairs := by
  obtain ⟨result, hresult, hvalue⟩ := Checked.bind_eq_ok.mp ((bind_pure_comp Json.obj _).trans h)
  obtain rfl := Checked.pure_eq_ok.mp hvalue
  suffices hfold : ∀ (pairs done result : List (Str × Json)), pairs.foldlM (fun result pair =>
      if pair.1 ∈ JsonObject.keys result then .error ⟨.DuplicateJsonKey, pair.1⟩
      else .ok (result ++ [pair])) done = Except.ok (ε := Exc) result → result = done ++ pairs by
    rw [hfold pairs [] result hresult, List.nil_append]
  intro pairs
  induction pairs with
  | nil =>
    intro done result h
    rw [List.append_nil]
    exact (Except.ok.inj h).symm
  | cons pair pairs ih =>
    intro done result h
    rw [List.foldlM_cons] at h
    obtain ⟨longer, hlonger, h⟩ := Checked.bind_eq_ok.mp h
    split at hlonger
    · cases hlonger
    · obtain rfl := Except.ok.inj hlonger
      rw [ih _ _ h, List.append_assoc, List.singleton_append]

/-- The lock has no duplicate keys. -/
theorem rejectDuplicateJsonKeys_lock (lock : PlanLock) :
    rejectDuplicateJsonKeys (sortedLockEntries lock) = .ok (.obj (sortedLockEntries lock)) := rfl

/-- The strings of a well-formed lock are plain. -/
structure PlanLock.Plain (lock : PlanLock) : Prop where
  plan_path : IsPlain lock.plan_path
  plan_hash : IsPlain lock.plan_hash
  target_branch : IsPlain lock.target_branch
  branch : IsPlain lock.branch
  base_tip_sha : IsPlain lock.base_tip_sha
  merge_base_sha : IsPlain lock.merge_base_sha

/-- The fields of a well-formed lock are plain text. -/
theorem PlanLock.WellFormed.plain {lock : PlanLock} (h : lock.WellFormed) : lock.Plain where
  plan_path := (planPathMatchesIssue_spec h.path_issue).1
  plan_hash := isPlain_hex (by decide) h.plan_hash
  target_branch := h.target_main ▸ ⟨List.cons_ne_nil _ _, visible_of_all rfl⟩
  branch := validateBranch_spec h.branch_issue
  base_tip_sha := isPlain_hex (by decide) h.base_tip_sha
  merge_base_sha := isPlain_hex (by decide) h.merge_base_sha

/-- The payload of a well-formed lock is dumped as ASCII. -/
theorem PlanLock.WellFormed.dumps_eq {lock : PlanLock} (h : lock.WellFormed) :
    ∃ text, JsonText.dumps false (planLockPayload lock) = .ok text ∧ JsonText.IsAscii text := by
  have hissue := (planPathMatchesIssue_spec h.path_issue).2
  have hplain := h.plain
  obtain ⟨text, htext⟩ : ∃ text, JsonText.dumps false (planLockPayload lock) = .ok text := by
    rw [JsonText.dumps, sortKeys_planLockPayload, sortedLockEntries, h.schema_version]
    simp only [JsonText.dump, JsonText.dumpEntries, hissue]
    exact ⟨_, rfl⟩
  refine ⟨text, htext, ?_⟩
  have hkeys : ∀ entry ∈ sortedLockEntries lock, JsonText.IsAscii entry.1 := by
    simp only [sortedLockEntries, List.forall_mem_cons]
    exact ⟨.of_all rfl, .of_all rfl, .of_all rfl, .of_all rfl, .of_all rfl, .of_all rfl,
      .of_all rfl, .of_all rfl, fun _ h => absurd h List.not_mem_nil⟩
  have hvalue : JsonText.AsciiValue false (.obj (sortedLockEntries lock)) := by
    refine .obj (fun entry hentry _ => hkeys entry hentry) ?_
    simp only [sortedLockEntries, List.forall_mem_cons]
    exact ⟨.str fun _ => hplain.base_tip_sha.isAscii, .str fun _ => hplain.branch.isAscii, .int _,
      .str fun _ => hplain.merge_base_sha.isAscii, .str fun _ => hplain.plan_hash.isAscii,
      .str fun _ => hplain.plan_path.isAscii, .int _, .str fun _ => hplain.target_branch.isAscii,
      fun _ h => absurd h List.not_mem_nil⟩
  exact hvalue.dumpsAscii _ _ (.of_all rfl) htext

variable [ByteRuntime] [JsonText.StandardLibrary]

/-- **What is written is read back.** -/
theorem PlanLock.WellFormed.roundtrip {lock : PlanLock} (h : lock.WellFormed) :
    ∃ content, jsonBytes (planLockPayload lock) = .ok content ∧
      parsePlanLock content = .ok lock := by
  obtain ⟨text, htext, hascii⟩ := h.dumps_eq
  have hplain := h.plain
  have hline : JsonText.IsAscii (text ++ "\n") := hascii.append (.of_all rfl)
  have hbytes : jsonBytes (planLockPayload lock) = .ok (JsonText.asciiBytes (text ++ "\n")) := by
    refine Checked.bind_eq_ok.mpr ⟨text, htext, ?_⟩
    rw [JsonText.encode_ascii hline]
    rfl
  refine ⟨_, hbytes, ?_⟩
  have hentries : ∀ entry ∈ sortedLockEntries lock,
      JsonText.Rereads false rejectDuplicateJsonKeys entry.2 := by
    simp only [sortedLockEntries, List.forall_mem_cons]
    exact ⟨.str nofun, .str nofun, .int _, .str nofun, .str nofun, .str nofun, .int _, .str nofun,
      fun _ h => nomatch h⟩
  have hrereads : JsonText.Rereads false rejectDuplicateJsonKeys (planLockPayload lock).sortKeys :=
    .obj (rejectDuplicateJsonKeys_lock lock) (fun _ _ => nofun) hentries
  have hflat : ∀ entry ∈ sortedLockEntries lock, entry.2.isScalar = true := by
    simp only [sortedLockEntries, List.forall_mem_cons]
    exact ⟨rfl, rfl, rfl, rfl, rfl, rfl, rfl, rfl, fun _ h => absurd h List.not_mem_nil⟩
  have hread : JsonText.loads rejectDuplicateJsonKeys (text ++ "\n") =
      some (.obj (sortedLockEntries lock)) := by
    rw [JsonText.loads_dumps hrereads htext, sortKeys_planLockPayload]
  have hloads := JsonText.StandardLibrary.loadsPairs_ascii _ _ _
    (fun _ _ => rejectDuplicateJsonKeys_keeps) hline hread hflat
  have hpayload : parseJsonObject (JsonText.asciiBytes (text ++ "\n")) "plan.lock" "plan lock" =
      .ok (sortedLockEntries lock) := by
    rw [parseJsonObject, hloads]
  have hfields : (sortedLockEntries lock).hasFields planLockFields := by
    have hkeys : JsonObject.keys (sortedLockEntries lock) = ["baseTipSha", "branch", "issue",
        "mergeBaseSha", "planHash", "planPath", "schemaVersion", "targetBranch"] := rfl
    rw [JsonObject.hasFields_iff, hkeys]
    decide
  have hversion : schemaVersionOne (planLockError "schemaVersion은 정수 1이어야 합니다.")
      (.int lock.schema_version) = .ok lock.schema_version :=
    Checked.raiseIf_bind_eq_ok.mpr ⟨not_not.mpr h.schema_version, rfl⟩
  have hissue : positiveIssue (planLockError "issue는 1 이상의 정수여야 합니다.")
      (.int lock.issue) = .ok lock.issue :=
    Checked.raiseIf_bind_eq_ok.mpr ⟨not_lt.mpr h.issue_pos, rfl⟩
  simp only [parsePlanLock, Checked.bind_eq_ok, Checked.raiseIf_eq_ok, Checked.pure_eq_ok,
    Checked.mapError_eq_ok, orRaise_eq_ok, exists_and_left, exists_const]
  refine ⟨_, hpayload, not_not.mpr hfields, _, rfl, _, hversion, _, rfl, _, hissue, ?_⟩
  refine ⟨_, rfl, _, hplain.plan_path.lockString_eq _, ?_⟩
  refine ⟨_, rfl, _, hplain.plan_hash.lockString_eq _, ?_⟩
  refine ⟨_, rfl, _, hplain.target_branch.lockString_eq _, ?_⟩
  refine ⟨_, rfl, _, hplain.branch.lockString_eq _, ?_⟩
  refine ⟨_, rfl, _, hplain.base_tip_sha.lockString_eq _, _, rfl, _,
    hplain.merge_base_sha.lockString_eq _, _, h.path_issue, ?_⟩
  refine ⟨by simp, by simp [h.target_main], (), h.branch_issue, ?_⟩
  simp [h.plan_hash, h.base_tip_sha, h.merge_base_sha]

omit [JsonText.StandardLibrary] in
/-- What was read is the lock that the bytes spell. -/
theorem loadPlanLock_replay_read {path : Path} {content : Bytes} {lock : PlanLock}
    (h : parsePlanLock content = .ok lock) :
    (loadPlanLock path).replay [⟨.readBytes path, .ok content⟩] = some (.ok lock) :=
  Script.replay_ask.mpr ⟨.ok content, [], rfl, Script.replay_ofExcept.mpr ⟨rfl, h.symm⟩⟩

/-- The lock of an accepted plan and of a context that was resolved for it is well formed. -/
theorem makePlanLock_wellFormed {raw : Bytes} {relative_path : Str} {known_risks : List Str}
    {plan : Plan} {context : GitContext}
    (hplan : parsePlan raw relative_path known_risks = .ok plan)
    (hcontext : context.WellFormed plan) : (makePlanLock plan context).WellFormed := by
  obtain ⟨hplan, -, hhash⟩ := parsePlan_wellFormed hplan
  obtain ⟨hlength, hdigits⟩ := JsonText.StandardLibrary.sha256_hex raw
  refine ⟨rfl, hplan.issue_pos, hplan.path_issue, hplan.target_main, hcontext.branch_issue, ?_,
    hcontext.base_tip_sha, hcontext.merge_base_sha⟩
  rw [makePlanLock, isPlanHash, hhash, hlength, hdigits]
  rfl

/-- What has to stay as it was when the lock was made. -/
structure Unchanged (plan plan' : Plan) (context context' : GitContext) : Prop where
  issue : plan'.issue = plan.issue
  plan_path : plan'.relative_path = plan.relative_path
  plan_hash : plan'.plan_hash = plan.plan_hash
  target_branch : plan'.target_branch = plan.target_branch
  branch : context'.branch = context.branch
  base_tip_sha : context'.base_tip_sha = context.base_tip_sha
  merge_base_sha : context'.merge_base_sha = context.merge_base_sha

omit [ByteRuntime] [JsonText.StandardLibrary] in
/-- A lock agrees with what has not changed since it was made. -/
theorem agrees_makePlanLock {plan plan' : Plan} {context context' : GitContext} :
    (makePlanLock plan context).Agrees plan' context' ↔ Unchanged plan plan' context context' :=
  ⟨fun ⟨h1, h2, h3, h4, h5, h6, h7⟩ =>
      ⟨h1.symm, h2.symm, h3.symm, h4.symm, h5.symm, h6.symm, h7.symm⟩,
    fun ⟨h1, h2, h3, h4, h5, h6, h7⟩ =>
      ⟨h1.symm, h2.symm, h3.symm, h4.symm, h5.symm, h6.symm, h7.symm⟩⟩

/-- **What `prepare` writes, `evaluate` reads.** For an accepted plan and a context that was
resolved for it, every write of the lock writes the same bytes; they are read as that
lock; and the lock is accepted later on if and only if none of its fields has changed. -/
theorem planLock_handshake {raw : Bytes} {relative_path : Str} {known_risks : List Str}
    {plan : Plan}
    (hplan : parsePlan raw relative_path known_risks = .ok plan) {root : Path} {gitSteps : Trace}
    {context : GitContext}
    (hcontext : (resolveLocalGitContext root plan).replay gitSteps = some (.ok context)) :
    ∃ content, jsonBytes (planLockPayload (makePlanLock plan context)) = .ok content ∧
      (∀ (path : Path) (steps : Trace) (result : Except Exc Unit),
        (writeJsonAtomic path (planLockPayload (makePlanLock plan context))).replay steps =
          some result →
        ∀ step ∈ steps, ∀ temporary_path written, step.op = .write temporary_path written →
          written = content) ∧
      (∀ path temporary_path : Path,
        (writeJsonAtomic path (planLockPayload (makePlanLock plan context))).replay
          (writtenSteps path temporary_path content) = some (.ok ())) ∧
      (∀ path : Path, (loadPlanLock path).replay [⟨.readBytes path, .ok content⟩] =
        some (.ok (makePlanLock plan context))) ∧
      ∀ (plan' : Plan) (context' : GitContext),
        validatePlanLock (makePlanLock plan context) plan' context' = .ok () ↔
          Unchanged plan plan' context context' := by
  have hlock := makePlanLock_wellFormed hplan (resolveLocalGitContext_wellFormed hcontext)
  obtain ⟨content, hcontent, hread⟩ := hlock.roundtrip
  refine ⟨content, hcontent,
    fun path steps result hreplay step hstep temporary_path written hop => ?_,
    fun _ temporary_path => writeJsonAtomic_replay_ok.mpr ⟨content, temporary_path, hcontent, rfl⟩,
    fun _ => loadPlanLock_replay_read hread, fun _ _ =>
      validatePlanLock_eq_ok.trans agrees_makePlanLock⟩
  have hwithin := ((writeJsonAtomic_within path _).replay hreplay).1 step hstep
  rw [hop, hcontent] at hwithin
  exact (Except.ok.inj hwithin).symm

end RoundTrip

namespace Sample

/-- The code points of bytes that are read one by one. -/
def textOf (raw : Bytes) : Str := raw.map fun b => Bytes.codePoint b.toNat

/-- The runtime that reads JSON text. -/
abbrev textRuntime : ByteRuntime where
  toRuntime := runtime.toRuntime
  loadsPairs hook raw :=
    match JsonText.loads hook (textOf raw) with
    | some value => .ok value
    | none => .error ⟨.JSONDecodeError, "Expecting value: line 1 column 1 (char 0)"⟩
  sha256 raw :=
    if raw = rawPlan then "e8264235f705529d13ea1391c884dcce18491dc829c6491cc1bb8da16bb3a7e3"
    else List.replicate 64 0x30
  decodeReplace := textOf
  isWordChar := runtime.isWordChar

/-- ASCII text is read back from its bytes. -/
theorem textOf_asciiBytes {text : Str} (h : JsonText.IsAscii text) :
    textOf (JsonText.asciiBytes text) = text := by
  rw [textOf, JsonText.asciiBytes, List.map_map]
  refine (List.map_congr_left fun c hc => ?_).trans (List.map_id text)
  have hascii := (h c hc).2
  ext
  simp only [Function.comp_apply, Bytes.codePoint, UInt8.toNat_ofNat', Fin.ofNat_eq_cast,
    Fin.val_natCast, id_eq]
  omega

/-- The runtime of the sample loads what the scanner reads. -/
theorem textRuntime_loadsPairs {hook : List (Str × Json) → Except Exc Json} {text : Str}
    {value : Json} (hascii : JsonText.IsAscii text)
    (hloads : JsonText.loads hook text = some value) :
    textRuntime.loadsPairs hook (JsonText.asciiBytes text) = .ok value := by
  change (match JsonText.loads hook (textOf (JsonText.asciiBytes text)) with
    | some value => _
    | none => _) = _
  rw [textOf_asciiBytes hascii, hloads]

/-- Its hashes have 64 hexadecimal digits. -/
theorem textRuntime_sha256 (raw : Bytes) : (textRuntime.sha256 raw).length = 64 ∧
    (textRuntime.sha256 raw).all CodePoint.isHexDigit = true := by
  change (ite (raw = rawPlan) _ _ : Str).length = 64 ∧ (ite (raw = rawPlan) _ _ : Str).all _ = true
  split <;> decide

/-- The runtime of the sample keeps the laws of the standard library. -/
theorem textRuntime_standard : @JsonText.StandardLibrary textRuntime :=
  @JsonText.StandardLibrary.mk textRuntime
    (fun _ _ _ _ hascii hloads _ => textRuntime_loadsPairs hascii hloads) textRuntime_sha256

/-- Git answers a command with some output. -/
def gitStep (args : List Str) (output : String) : Step Op.Answer :=
  ⟨.run (("git" : Str) :: args) (.ofStr "/repo") false, .ok ⟨0, Bytes.ofString output, []⟩⟩

/-- What Git answers about the branch and the commits. -/
def contextSteps : Trace :=
  [gitStep ["fetch", "--quiet", "origin", "main"] "",
    gitStep ["branch", "--show-current"] "docs/7-guide\n",
    gitStep ["rev-parse", "refs/remotes/origin/main"] "1111111111111111111111111111111111111111\n",
    gitStep ["merge-base", "HEAD", "1111111111111111111111111111111111111111"]
      "1111111111111111111111111111111111111111\n",
    gitStep ["rev-parse", "HEAD"] "2222222222222222222222222222222222222222\n"]

/-- The context that Git has described. -/
def gitContext : GitContext where
  branch := "docs/7-guide"
  target_branch := "main"
  base_tip_sha := "1111111111111111111111111111111111111111"
  merge_base_sha := "1111111111111111111111111111111111111111"
  candidate_head_sha := "2222222222222222222222222222222222222222"
  tested_revision_sha := "2222222222222222222222222222222222222222"

/-- The sample steps give the sample context. -/
theorem contextSteps_replay :
    (@resolveLocalGitContext textRuntime (.ofStr "/repo") plan).replay contextSteps =
      some (.ok gitContext) := by
  decide +kernel

/-- The text of the sample plan is read as the plan. -/
theorem parsePlan_text_eq :
    @parsePlan textRuntime rawPlan "harness/plans/7.json" policy.known_risks = .ok plan := by
  decide +kernel

end Sample

/-- The lock of a plan is read back, and refused when the branch has changed. -/
theorem planLock_handshake_guide :
    ∃ content, jsonBytes (planLockPayload (makePlanLock Sample.plan Sample.gitContext)) =
        .ok content ∧
      (@loadPlanLock Sample.textRuntime (.ofStr "/repo/build/harness/plan.lock.json")).replay
          [⟨.readBytes (.ofStr "/repo/build/harness/plan.lock.json"), .ok content⟩] =
        some (.ok (makePlanLock Sample.plan Sample.gitContext)) ∧
      validatePlanLock (makePlanLock Sample.plan Sample.gitContext) Sample.plan
        { Sample.gitContext with branch := "docs/7-other" } ≠ .ok () := by
  obtain ⟨content, hcontent, -, -, hload, hvalid⟩ := @planLock_handshake Sample.textRuntime
    Sample.textRuntime_standard _ _ _ _ Sample.parsePlan_text_eq _ _ _ Sample.contextSteps_replay
  refine ⟨content, hcontent, hload _, fun hok => ?_⟩
  exact absurd ((hvalid _ _).mp hok).branch (by decide +kernel)

end CoffeeOrder.Harness
