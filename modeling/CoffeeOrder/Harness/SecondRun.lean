import CoffeeOrder.Harness.WorkingDisk

/-!
# A second evaluation

`evaluate` after a run of it that has passed. What the first run has asked outside of the evidence
is answered again, so that the second one finds the lock that the first one has left and returns the
same evaluation.
-/

namespace CoffeeOrder.Harness

open Kit Python

section PlanPath

/-- The digits, the hyphen and the slug of an issue hold no slash. -/
theorem slash_notMem_issueOfSlug {s digits : Str} (h : issueOfSlug s = some digits) :
    CodePoint.slash ∉ s := by
  obtain ⟨htake, slug, hs, hslug⟩ := issueOfSlug_eq_some h
  have hdigits : CodePoint.slash ∉ digits := by
    intro hmem
    rw [← htake] at hmem
    exact absurd (List.mem_takeWhile_imp hmem) (by decide)
  have hpart : CodePoint.slash ∉ slug := by
    intro hmem
    obtain hhyphen | ⟨part, hpart, hmem⟩ := mem_splitOn 0x2d hmem
    · exact absurd hhyphen (by decide)
    · have hall := List.all_eq_true.mp hslug part hpart
      rw [Bool.and_eq_true] at hall
      exact absurd (List.all_eq_true.mp hall.2 _ hmem) (by decide)
  rw [hs, List.mem_append, List.mem_append]
  rintro (hmem | hmem | hmem)
  · exact hdigits hmem
  · exact absurd hmem (by decide)
  · exact hpart hmem

/-- The name of a plan begins with a digit of its issue or with `issue`. -/
def beginsPlanName (name : Str) : Bool := name.head?.any fun c => c.isDigit || c == 0x69

/-- A plan path is the directory of the plans and a name. -/
theorem planPathMatchesIssue_name {path : Str} {issue : ℤ}
    (h : planPathMatchesIssue path issue = .ok true) :
    ∃ name, path = Str.ofString "harness/plans" ++ CodePoint.slash :: name ∧
      CodePoint.slash ∉ name ∧ beginsPlanName name = true := by
  unfold planPathMatchesIssue at h
  cases hissue : (legacyPlanIssue path).or (readablePlanIssue path) with
  | none =>
    rw [hissue] at h
    cases h
  | some digits =>
    have hends {name : Str} (hname : CodePoint.slash ∉ name) :
        CodePoint.slash ∉ name ++ Str.ofString ".json" := by
      rw [List.mem_append]
      rintro (hmem | hmem)
      · exact hname hmem
      · exact absurd hmem (by decide)
    obtain hlegacy | ⟨-, hreadable⟩ := Option.or_eq_some_iff.mp hissue
    · obtain ⟨name, hname, hdigits⟩ := Option.bind_eq_some_iff.mp hlegacy
      obtain ⟨found, hfound, hdigits⟩ := Option.bind_eq_some_iff.mp hdigits
      obtain ⟨rfl, -⟩ := Option.ite_none_right_eq_some.mp hdigits
      have htake := issueDigits_eq_some hfound
      have hall : ∀ c ∈ found, c.isDigit = true := fun c hc => List.mem_takeWhile_imp (htake ▸ hc)
      refine ⟨found ++ Str.ofString ".json", ?_, hends fun hmem => ?_, ?_⟩
      · rw [between_eq_some hname]
        simp [Str.ofString, CodePoint.slash]
      · exact absurd (hall _ hmem) (by decide)
      · cases found with
        | nil => cases hfound
        | cons c rest => simp [beginsPlanName, hall c List.mem_cons_self]
    · obtain ⟨slug, hslug, hdigits⟩ := Option.bind_eq_some_iff.mp hreadable
      refine ⟨Str.ofString "issue-" ++ slug ++ Str.ofString ".json", ?_, hends ?_, by rfl⟩
      · rw [between_eq_some hslug]
        simp [Str.ofString, CodePoint.slash]
      · rw [List.mem_append]
        rintro (hmem | hmem)
        · exact absurd hmem (by decide)
        · exact slash_notMem_issueOfSlug hdigits hmem

/-- The path of a child ends in its name, if it is spelled relative to a parent. -/
theorem relativeTo_child_posix [Runtime] {directory root relative_path : Path} {name : Str}
    (h : (directory.child name).relativeTo root = .ok relative_path) :
    relative_path.asPosix = Str.ofString "." ∨ relative_path.asPosix = name ∨
      ∃ front, relative_path.asPosix = front ++ CodePoint.slash :: name := by
  unfold Path.relativeTo at h
  split at h
  · obtain rfl := Except.ok.inj h
    obtain hlt | hle := Nat.lt_or_ge directory.parts.length root.parts.length
    · left
      rw [Path.child, List.drop_eq_nil_of_le (by simpa using hlt)]
      rfl
    · right
      rw [Path.child, List.drop_append_of_le_length hle]
      generalize directory.parts.drop root.parts.length = front
      rw [Path.asPosix, if_neg (by simp), List.nil_append, Str.join]
      obtain rfl | hne := eq_or_ne front []
      · exact .inl (List.intercalate_singleton ..)
      · refine .inr ⟨(Str.ofString "/").intercalate front, ?_⟩
        rw [intercalate_append hne (List.cons_ne_nil _ _), List.intercalate_singleton,
          List.append_assoc]
        rfl
  · cases h

/-- Evidence is no plan. -/
theorem planPathMatchesIssue_evidence [Runtime] {resolved_root root path relative_path : Path}
    {issue : ℤ} (hmem : path ∈ evidencePaths resolved_root)
    (hrelative : path.relativeTo root = .ok relative_path) :
    planPathMatchesIssue relative_path.asPosix issue ≠ .ok true := by
  intro hmatches
  obtain ⟨plan, hplan, hslash, hbegins⟩ := planPathMatchesIssue_name hmatches
  have hname {directory : Path} {name : Str}
      (hrelative : (directory.child name).relativeTo root = .ok relative_path) :
      CodePoint.slash ∈ name ∨ beginsPlanName name = true := by
    obtain hposix | hposix | ⟨front, hposix⟩ := relativeTo_child_posix hrelative
    · exact absurd (hplan.symm.trans hposix) (by simp [Str.ofString])
    · refine .inl (hposix ▸ hplan ▸ ?_)
      exact List.mem_append_right _ List.mem_cons_self
    · by_contra hneither
      obtain ⟨hpart, hother⟩ := not_or.mp hneither
      obtain rfl := append_cons_right_inj hslash hpart (hplan.symm.trans hposix)
      exact hother hbegins
  simp only [evidencePaths, List.mem_cons, List.not_mem_nil, or_false] at hmem
  obtain rfl | rfl | rfl | rfl := hmem
  · exact absurd (hname hrelative) (by decide)
  · exact absurd (hname hrelative) (by decide)
  · exact absurd (hname hrelative) (by decide)
  · exact absurd (hname hrelative) (by decide)

end PlanPath

section Outside

variable [ByteRuntime] {resolved_root root : Path}

/-- The script asks for no evidence. -/
abbrev StaysOutside {ε α : Type} (resolved_root : Path) (p : Script ε Op.Answer α) : Prop :=
  p.Within (Op.Outside resolved_root) fun _ => True

omit [ByteRuntime] in
/-- What asks nothing asks for no evidence. -/
theorem outside_lift {ε α : Type} (x : Except ε α) :
    StaysOutside resolved_root (Script.ofExcept x : Script ε Op.Answer α) :=
  Script.Within.ofExcept fun _ _ => trivial

/-- Nor does a command of Git. -/
theorem runGit_outside (args : List Str) : StaysOutside resolved_root (runGit root args) := by
  refine .bind ⟨trivial, fun _ => trivial⟩ fun answer => ?_
  cases answer with
  | error error => exact .ite trivial trivial
  | ok result => exact .ite trivial trivial

/-- Nor what parses its output. -/
theorem parsed_outside (parse : Bytes → Except Failure (List Str)) (args : List Str) :
    StaysOutside resolved_root (parsed parse root args) :=
  (runGit_outside args).bind fun _ => outside_lift _

/-- `collect_worktree_paths` asks Git only. -/
theorem collectWorktreePaths_outside : StaysOutside resolved_root (collectWorktreePaths root) :=
  (parsed_outside _ _).bind fun _ => (parsed_outside _ _).bind fun _ =>
    (parsed_outside _ _).bind fun _ => .pure

/-- `validate_evaluate_clean_state` asks Git only. -/
theorem validateEvaluateCleanState_outside (phase : Str) :
    StaysOutside resolved_root (validateEvaluateCleanState root phase) :=
  collectWorktreePaths_outside.bind fun _ => .ite trivial .pure

/-- `collect_local_changed_paths` asks Git only. -/
theorem collectLocalChangedPaths_outside (merge_base_sha : Str) :
    StaysOutside resolved_root (collectLocalChangedPaths root merge_base_sha) :=
  (parsed_outside _ _).bind fun _ => (parsed_outside _ _).bind fun _ =>
    (parsed_outside _ _).bind fun _ => (parsed_outside _ _).bind fun _ => .pure

/-- `validate_existing_migrations_immutable` asks Git only. -/
theorem validateExistingMigrationsImmutable_outside (context : GitContext)
    (changed_paths : List Str) :
    StaysOutside resolved_root (validateExistingMigrationsImmutable root context changed_paths) :=
  (parsed_outside _ _).bind fun _ => (parsed_outside _ _).bind fun _ =>
    (parsed_outside _ _).bind fun _ => (parsed_outside _ _).bind fun _ => outside_lift _

/-- `resolve_local_git_context` asks Git only. -/
theorem resolveLocalGitContext_outside (plan : Plan) :
    StaysOutside resolved_root (resolveLocalGitContext root plan) := by
  refine ((runGit_outside _).mapError fun _ _ => trivial).bind fun _ => ?_
  refine (runGit_outside _).bind fun _ => .ite trivial ?_
  refine (outside_lift _).bind fun _ => (runGit_outside _).bind fun _ => ?_
  refine (runGit_outside _).bind fun _ => (runGit_outside _).bind fun _ => ?_
  exact (outside_lift _).bind fun _ => .pure

/-- The policy is no evidence. -/
theorem loadRiskPolicy_outside :
    StaysOutside resolved_root (loadRiskPolicy (riskPolicyPath resolved_root)) := by
  have hpath : riskPolicyPath resolved_root ∉ evidencePaths resolved_root := by
    intro hmem
    have hnames : ∀ path ∈ evidencePaths resolved_root, ∃ parent : Path, ∃ name : Str,
        path = parent.child name ∧ name ∈ (["build", "harness", lockName, evaluationName] :
          List Str) := by
      simp only [evidencePaths, List.forall_mem_cons]
      exact ⟨⟨_, _, rfl, by decide⟩, ⟨_, _, rfl, by decide⟩, ⟨_, _, rfl, by decide⟩,
        ⟨_, _, rfl, by decide⟩, by simp⟩
    obtain ⟨parent, name, heq, hname⟩ := hnames _ hmem
    rw [← (Path.child_inj.mp heq).2] at hname
    revert hname
    decide
  refine .bind ⟨hpath, fun _ => trivial⟩ fun answer => ?_
  cases answer with
  | ok raw => exact outside_lift _
  | error error => exact .ite trivial trivial

/-- `compute_diff_hash` asks Git only, as long as there are no untracked files. -/
theorem computeDiffHash_asks {A : (op : Op) → op.Answer → Prop}
    (huntracked : (untrackedPaths root).Meets A (fun _ => True) (· = [])) (context : GitContext)
    (changed_paths : List Str) :
    (computeDiffHash root context changed_paths).Asks A (Op.Outside resolved_root) := by
  refine Script.Asks.bind (P := fun _ => True) (Q := fun found => found.2 = [])
    (Script.Asks.mapError ?_) (Script.Meets.mapError (P := fun _ => True) ?_ fun _ _ => trivial) ?_
  · refine ((runGit_outside _).bind fun _ => ?_).asks
    exact (parsed_outside _ _).bind fun _ => .pure
  · refine .bind (.imp (fun _ _ _ => trivial) (.anything _)) fun raw_diff _ => ?_
    exact huntracked.bind fun _ hnothing => hnothing
  rintro ⟨raw_diff, untracked_paths⟩ rfl
  refine ⟨trivial, fun answer _ => ?_⟩
  cases answer with
  | error error => trivial
  | ok resolved => trivial

/-- A plan that is accepted is no evidence. -/
theorem loadPlan_outside {plan_path : Path} {policy : RiskPolicy} {plan : Plan} {steps : Trace}
    (h : (loadPlan root plan_path policy).replay steps = some (.ok plan)) :
    ∀ step ∈ steps, step.op.Outside resolved_root := by
  obtain ⟨found_root, first, _, rfl, hresolve, h⟩ := Script.replay_bind_ok.mp h
  obtain ⟨⟨relative_path, raw⟩, reading, last, rfl, hread, hparse⟩ := Script.replay_bind_ok.mp h
  obtain ⟨_, resolved_plan, behind, rfl, -, hbehind⟩ :=
    Script.replay_ask_bind_ok.mp (Script.replay_mapError_ok.mp hread)
  obtain ⟨found_path, inside, _, rfl, hinside, hraw⟩ := Script.replay_bind_ok.mp hbehind
  obtain ⟨rfl, hrelative⟩ := Script.replay_ofExcept.mp hinside
  obtain ⟨_, content, ending, rfl, -, hend⟩ := Script.replay_ask_bind_ok.mp hraw
  obtain ⟨rfl, hfound⟩ := Script.replay_done.mp hend
  obtain ⟨rfl, rfl⟩ := Prod.mk.inj (Except.ok.inj hfound)
  obtain ⟨rfl, hplan⟩ := Script.replay_ofExcept.mp hparse
  obtain ⟨hwell, hpath, -⟩ := parsePlan_wellFormed hplan.symm
  have hmatches := hwell.path_issue
  rw [hpath] at hmatches
  have houtside : resolved_plan ∉ evidencePaths resolved_root := fun hmem =>
    planPathMatchesIssue_evidence hmem hrelative.symm hmatches
  have hfirst : ∀ step ∈ first, step.op.Outside resolved_root := by
    refine (Script.Within.replay (P := fun _ => True) ?_ hresolve).1
    exact ⟨trivial, fun answer => outside_lift _⟩
  refine List.forall_mem_append.mpr ⟨hfirst, ?_⟩
  simpa [Op.Outside] using houtside

/-- In a clean state there are no untracked files. -/
theorem validateEvaluateCleanState_untracked {phase : Str} {steps : Trace}
    (h : (validateEvaluateCleanState root phase).replay steps = some (.ok ())) :
    ∃ listing, (untrackedPaths root).replay listing = some (.ok []) ∧ listing ⊆ steps := by
  obtain ⟨dirty_paths, first, last, rfl, hdirty, hclean⟩ := Script.replay_bind_ok.mp h
  have hnone : dirty_paths = [] := not_not.mp (Script.ranIn_of_replay hclean).of_ite_throw.1
  obtain ⟨cached, s₁, _, rfl, -, hdirty⟩ := Script.replay_bind_ok.mp hdirty
  obtain ⟨unstaged, s₂, _, rfl, -, hdirty⟩ := Script.replay_bind_ok.mp hdirty
  obtain ⟨untracked, s₃, s₄, rfl, huntracked, hdirty⟩ := Script.replay_bind_ok.mp hdirty
  obtain ⟨rfl, hpaths⟩ := Script.replay_done.mp hdirty
  rw [hnone] at hpaths
  have hnothing := Str.sortedSet_eq_nil.mp (Except.ok.inj hpaths).symm
  obtain rfl : untracked = [] := (List.append_eq_nil_iff.mp hnothing).2
  exact ⟨s₃, huntracked, fun step hstep => by simp [hstep]⟩

/-- The body of `evaluate` asks for no evidence after the lock. -/
theorem evaluateLoaded_asks {A : (op : Op) → op.Answer → Prop}
    (huntracked : (untrackedPaths root).Meets A (fun _ => True) (· = [])) (policy : RiskPolicy)
    (plan : Plan) (context : GitContext) (lock : PlanLock) :
    (evaluateLoaded root policy plan context lock).Asks A (Op.Outside resolved_root) := by
  have hduring {α : Type} {l : Locals} {p : HarnessM α} {f : α → Script (Failure × Locals) _ Locals}
      (hp : p.Asks A (Op.Outside resolved_root))
      (hf : ∀ a, (f a).Asks A (Op.Outside resolved_root)) :
      (l.during p >>= f).Asks A (Op.Outside resolved_root) :=
    hp.mapError.bind (.imp (fun _ _ _ => trivial) (.anything _)) fun a _ => hf a
  have hlift {α : Type} {l : Locals} {x : Except Failure α}
      {f : α → Script (Failure × Locals) _ Locals}
      (hf : ∀ a, (f a).Asks A (Op.Outside resolved_root)) :
      (l.during (liftM x) >>= f).Asks A (Op.Outside resolved_root) :=
    hduring (outside_lift x).asks hf
  refine hlift fun _ => hduring (collectLocalChangedPaths_outside _).asks fun changed_paths => ?_
  refine hduring (computeDiffHash_asks huntracked _ _) fun diff_hash => ?_
  refine hduring (validateExistingMigrationsImmutable_outside _ _).asks fun _ => ?_
  refine hlift fun _ => hlift fun _ => hlift fun _ => hlift fun _ => hlift fun requested_ids => ?_
  refine hduring (p := callRunner root requested_ids) ⟨trivial, fun answer _ => ?_⟩ fun _ => ?_
  · exact (outside_lift answer).asks
  · exact hlift fun _ => trivial

/-- The identity is read again without a look at the evidence. -/
theorem currentIdentity_outside {A : (op : Op) → op.Answer → Prop}
    (huntracked : (untrackedPaths resolved_root).Meets A (fun _ => True) (· = []))
    {plan_path : Path} {current : Identity} {steps : Trace}
    (hsteps : ∀ step ∈ steps, A step.op step.answer)
    (h : (currentIdentity resolved_root plan_path).replay steps = some (.ok current)) :
    ∀ step ∈ steps, step.op.Outside resolved_root := by
  obtain ⟨⟨⟩, s₁, _, rfl, hclean, h⟩ := Script.replay_bind_ok.mp h
  obtain ⟨policy, s₂, _, rfl, hpolicy, h⟩ := Script.replay_bind_ok.mp h
  obtain ⟨plan, s₃, _, rfl, hplan, h⟩ := Script.replay_bind_ok.mp h
  obtain ⟨context, s₄, _, rfl, hcontext, h⟩ := Script.replay_bind_ok.mp h
  obtain ⟨changed_paths, s₅, _, rfl, hchanged, h⟩ := Script.replay_bind_ok.mp h
  obtain ⟨diff_hash, s₆, s₇, rfl, hhash, h⟩ := Script.replay_bind_ok.mp h
  obtain ⟨rfl, -⟩ := Script.replay_done.mp h
  simp only [List.forall_mem_append] at hsteps ⊢
  exact ⟨((validateEvaluateCleanState_outside _).replay hclean).1,
    (loadRiskPolicy_outside.replay hpolicy).1, loadPlan_outside hplan,
    ((resolveLocalGitContext_outside _).replay hcontext).1,
    ((collectLocalChangedPaths_outside _).replay hchanged).1,
    (computeDiffHash_asks huntracked _ _).replay hsteps.2.2.2.2.2.1 hhash,
    fun _ hmem => absurd hmem List.not_mem_nil⟩

end Outside

section Located

variable {root path : Path} {steps : Trace}

/-- The root that was found is a directory. -/
theorem strictRepositoryRoot_replay {found : Path}
    (h : (strictRepositoryRoot path).replay steps = some (.ok found)) :
    ⟨.resolve path true, .ok found⟩ ∈ steps ∧ ⟨.lstat found, .ok .directory⟩ ∈ steps := by
  obtain ⟨⟨resolved_root, root_status⟩, first, last, rfl, hfirst, hlast⟩ :=
    Script.replay_bind_ok.mp h
  obtain ⟨hdirectory, hfound⟩ := (Script.ranIn_of_replay hlast).of_ite_throw
  obtain rfl := hfound.of_pure
  obtain ⟨_, resolved, behind, rfl, rfl, hbehind⟩ :=
    Script.replay_ask_bind_ok.mp (Script.replay_mapError_ok.mp hfirst)
  obtain ⟨_, status, ending, rfl, rfl, hend⟩ := Script.replay_ask_bind_ok.mp hbehind
  obtain ⟨rfl, hresult⟩ := Script.replay_done.mp hend
  obtain ⟨rfl, rfl⟩ := Prod.mk.inj (Except.ok.inj hresult)
  obtain rfl := not_not.mp hdirectory
  simp

variable [ByteRuntime]

/-- A directory that was accepted lies in the root. -/
theorem ensureSafeEvidenceDirectory_replay {directory : Path}
    (h : (ensureSafeEvidenceDirectory root directory).replay steps = some (.ok ())) :
    ∃ found inside, ⟨.resolve directory true, .ok found⟩ ∈ steps ∧
      found.relativeTo root = .ok inside := by
  obtain ⟨status, first, last, rfl, -, hlast⟩ := Script.replay_bind_ok.mp h
  obtain ⟨-, hran⟩ := (Script.ranIn_of_replay hlast).of_ite_throw
  obtain ⟨-, hran⟩ := hran.of_ite_throw
  obtain ⟨before_, during, after_, rfl, hread⟩ := hran
  obtain ⟨_, found, behind, rfl, rfl, hbehind⟩ :=
    Script.replay_ask_bind_ok.mp (Script.replay_mapError_ok.mp hread)
  obtain ⟨inside, s₁, s₂, rfl, hinside, -⟩ := Script.replay_bind_ok.mp hbehind
  obtain ⟨rfl, hrelative⟩ := Script.replay_ofExcept.mp hinside
  exact ⟨found, inside, by simp, hrelative.symm⟩

/-- What was seen before a path was accepted. -/
structure Accepting (steps : Trace) (path resolved_root : Path) : Prop where
  resolves : ⟨.resolve path true, .ok resolved_root⟩ ∈ steps
  directory : ⟨.lstat resolved_root, .ok .directory⟩ ∈ steps
  build_inside : ∃ found inside, ⟨.resolve (resolved_root.child "build") true, .ok found⟩ ∈ steps ∧
    found.relativeTo resolved_root = .ok inside
  harness_inside : ∃ found inside, ⟨.resolve (evidenceDirectory resolved_root) true, .ok found⟩ ∈
    steps ∧ found.relativeTo resolved_root = .ok inside

/-- An accepted path is that of a file in the evidence directory of the root. -/
theorem safeEvidencePath_replay {filename : Str} {found : Path}
    (h : (safeEvidencePath path filename).replay steps = some (.ok found)) :
    ∃ resolved_root, found = (evidenceDirectory resolved_root).child filename ∧
      Accepting steps path resolved_root := by
  obtain ⟨resolved_root, s₁, _, rfl, hroot, h⟩ := Script.replay_bind_ok.mp h
  obtain ⟨⟨⟩, s₂, _, rfl, hbuild, h⟩ := Script.replay_bind_ok.mp h
  obtain ⟨⟨⟩, s₃, s₄, rfl, hharness, h⟩ := Script.replay_bind_ok.mp h
  obtain ⟨hresolves, hdirectory⟩ := strictRepositoryRoot_replay hroot
  obtain ⟨build, inside, hbuild, hinside⟩ := ensureSafeEvidenceDirectory_replay hbuild
  obtain ⟨harness, inside', hharness, hinside'⟩ := ensureSafeEvidenceDirectory_replay hharness
  refine ⟨resolved_root, ?_, List.mem_append_left _ hresolves, List.mem_append_left _ hdirectory,
    ⟨build, inside, List.mem_append_right _ (List.mem_append_left _ hbuild), hinside⟩,
    harness, inside', List.mem_append_right _ (List.mem_append_right _ (List.mem_append_left _
      hharness)), hinside'⟩
  refine (Script.Meets.replay (A := fun _ _ => True) (P := fun _ => True)
    (Q := (· = (evidenceDirectory resolved_root).child filename)) ?_ (fun _ _ => trivial) h).2
      found rfl
  refine meets_ask fun status _ => ?_
  cases status with
  | error error => exact .ite rfl trivial
  | ok target_status => exact .ite trivial (.ite trivial rfl)

end Located

section Placing

variable [ByteRuntime] {root plan_path : Path} {steps : Trace} {evaluation : Evaluation}
  {repository : (op : Op) → op.Answer}

omit [ByteRuntime] in
/-- The evidence directory determines the root. -/
theorem evidenceDirectory_inj {resolved_root resolved_root' : Path}
    (h : evidenceDirectory resolved_root = evidenceDirectory resolved_root') :
    resolved_root = resolved_root' :=
  (Path.child_inj.mp (Path.child_inj.mp h).1).1

/-- The path of the lock has been found again. -/
theorem recheckPaths_locates {resolved_root evaluation_path : Path} {steps : Trace}
    (h : (recheckPaths resolved_root evaluation_path true).replay steps = some (.ok ())) :
    (safeEvidencePath resolved_root lockName).RanIn steps (lockPath resolved_root) := by
  obtain ⟨_, -, h⟩ := (Script.ranIn_of_replay h).bind
  obtain ⟨-, h⟩ := h.of_ite_throw
  obtain ⟨found, hfound, h⟩ := h.bind
  obtain ⟨hsame, -⟩ := h.of_ite_throw
  rwa [not_not.mp hsame] at hfound

/-- The opened evaluation is that of a root. -/
theorem openEvidence_replay {resolved_root evaluation_path : Path} {steps : Trace}
    (h : (openEvidence root).replay steps = some (.ok (resolved_root, evaluation_path))) :
    ⟨.resolve root true, .ok resolved_root⟩ ∈ steps ∧
      ∃ found, evaluation_path = evaluationPath found ∧
        ⟨.resolve resolved_root true, .ok found⟩ ∈ steps := by
  obtain ⟨found, first, _, rfl, hroot, h⟩ := Script.replay_bind_ok.mp h
  obtain ⟨path, second, last, rfl, hremoved, h⟩ := Script.replay_bind_ok.mp h
  obtain ⟨-, hresult⟩ := Script.replay_done.mp h
  obtain ⟨rfl, rfl⟩ := Prod.mk.inj (Except.ok.inj hresult)
  obtain ⟨located, locating, removing, rfl, hlocated, hremoving⟩ :=
    Script.replay_bind_ok.mp hremoved
  obtain ⟨root', rfl, hsafe⟩ := safeEvidencePath_replay hlocated
  obtain rfl := ((removeStaleEvidence_meets _ _).replay (fun _ _ => trivial) hremoving).2 _ rfl
  refine ⟨List.mem_append_left _ (strictRepositoryRoot_replay hroot).1, root', rfl, ?_⟩
  simp [hsafe.resolves]

/-- **Where the repository is**, after a run that has passed. -/
theorem PassingRun.placed (run : PassingRun root plan_path steps evaluation)
    (hrepeats : ∀ step ∈ steps, step.op.Outside run.resolved_root →
      step.answer = repository step.op) :
    Placed repository root run.resolved_root ∧
      run.evaluation_path = evaluationPath run.resolved_root := by
  obtain ⟨hroot, found, hevaluation, hagain⟩ := openEvidence_replay run.opened
  obtain ⟨first, last, rest, hlocating, hlast⟩ := recheckPaths_locates run.located
  obtain ⟨found', hlock, hsafe⟩ := safeEvidencePath_replay hlast
  obtain rfl := evidenceDirectory_inj (Path.child_inj.mp hlock).1
  have hopening {step : Step Op.Answer} (h : step ∈ run.opening) : step ∈ steps := by
    rw [run.steps_eq]
    exact List.mem_append_left _ h
  have hlast {step : Step Op.Answer} (h : step ∈ last) : step ∈ steps := by
    rw [run.steps_eq, hlocating]
    simp [h]
  have hsame := hrepeats _ (hlast hsafe.resolves) trivial
  obtain rfl : found = run.resolved_root :=
    Except.ok.inj ((hrepeats _ (hopening hagain) trivial).trans hsame.symm)
  obtain ⟨build, inside, hbuild, hinside⟩ := hsafe.build_inside
  obtain ⟨harness, inside', hharness, hinside'⟩ := hsafe.harness_inside
  exact ⟨{
    root_resolves := (hrepeats _ (hopening hroot) trivial).symm
    again_resolves := hsame.symm
    directory := (hrepeats _ (hlast hsafe.directory) (root_outside _)).symm
    build_inside := ⟨build, inside, (hrepeats _ (hlast hbuild) trivial).symm, hinside⟩
    harness_inside := ⟨harness, inside', (hrepeats _ (hlast hharness) trivial).symm, hinside'⟩ },
    hevaluation⟩

end Placing

section Left

variable {foreign : Disk → Disk → Prop} {disk disk' : Disk}

variable [ByteRuntime]

end Left

section Again

variable [ByteRuntime] {root resolved_root plan_path : Path} {steps : Trace} {disk : Disk}
  {evaluation : Evaluation} {repository : (op : Op) → op.Answer} {α β : Type}

/-- The repository has answered what the steps ask outside of the evidence. -/
def Repeated (repository : (op : Op) → op.Answer) (resolved_root : Path) (steps : Trace) : Prop :=
  ∀ step ∈ steps, step.op.Outside resolved_root → step.answer = repository step.op

omit [ByteRuntime] in
/-- A part of them that does not ask for evidence. -/
theorem Repeated.answered {part : Trace} (h : Repeated repository resolved_root steps)
    (hpart : part ⊆ steps) (houtside : ∀ step ∈ part, step.op.Outside resolved_root) :
    AnsweredBy repository resolved_root part :=
  fun step hstep => ⟨houtside step hstep, h step (hpart hstep) (houtside step hstep)⟩

/-- In what answers like the repository there are no untracked files either. -/
theorem Repeated.untracked {part : Trace} {phase : Str}
    (h : Repeated repository resolved_root steps) (hpart : part ⊆ steps)
    (hclean : (validateEvaluateCleanState resolved_root phase).replay part = some (.ok ())) :
    (untrackedPaths resolved_root).Meets
      (fun op answer => op.Outside resolved_root → answer = repository op) (fun _ => True)
      (· = []) := by
  obtain ⟨listing, hlisting, hsub⟩ := validateEvaluateCleanState_untracked hclean
  refine Script.meets_again hlisting fun step hstep answer hanswer => ?_
  have houtside : step.op.Outside resolved_root :=
    ((parsed_outside _ _).replay hlisting).1 step hstep
  exact (hanswer houtside).trans (h step (hpart (hsub hstep)) houtside).symm

omit [ByteRuntime] in
/-- A part of the body that reads only returns the same again. -/
theorem during_again {l : Locals} {p : HarnessM α} {part : Trace} {a : α}
    {f : α → Script (Failure × Locals) Op.Answer β}
    {Q : Disk → Except (Failure × Locals) β → Prop} (hsound : Sound p)
    (hreplay : p.replay part = some (.ok a)) (hanswered : AnsweredBy repository resolved_root part)
    (hf : ∀ disk', SameEvidence resolved_root disk disk' →
      (f a).Ensures (Serves repository resolved_root) Q disk') :
    (l.during p >>= f).Ensures (Serves repository resolved_root) Q disk := by
  have hcalls : ∀ step ∈ part, ¬step.op.CallsRunner :=
    fun step hstep => ((hsound.replay hreplay).1 step hstep).not_callsRunner
  exact returns_bind (again_same (Script.replay_mapError_ok.mpr hreplay) hanswered hcalls) hf

omit [ByteRuntime] in
/-- An attempt at a part with one outcome. -/
theorem exactly_attempt {E : (op : Op) → op.Answer → Disk → Disk → Prop} {ε ε' : Type}
    {p : Script ε Op.Answer α} {a : α} {disk' : Disk}
    (hp : p.Ensures E (fun found r => found = disk' ∧ r = .ok a) disk) :
    (p.attempt : Script ε' Op.Answer (Except ε α)).Ensures E
      (fun found r => found = disk' ∧ r = .ok (.ok a)) disk := by
  refine Script.keeps_attempt.mpr (hp.mono ?_)
  rintro found _ ⟨rfl, rfl⟩
  exact ⟨rfl, rfl⟩

omit [ByteRuntime] in
/-- A part of the body with one outcome. -/
theorem during_exactly {E : (op : Op) → op.Answer → Disk → Disk → Prop} {l : Locals}
    {p : HarnessM α} {a : α} {f : α → Script (Failure × Locals) Op.Answer β} {disk' : Disk}
    {Q : Disk → Except (Failure × Locals) β → Prop}
    (hp : p.Ensures E (fun found r => found = disk' ∧ r = .ok a) disk)
    (hf : (f a).Ensures E Q disk') : (l.during p >>= f).Ensures E Q disk := by
  refine exactly_bind (Script.keeps_tryCatch.mpr (hp.mono ?_)) hf
  rintro found _ ⟨rfl, rfl⟩
  exact ⟨rfl, rfl⟩

/-- **The body** has the same outcome again if the lock that it has loaded is there. -/
theorem BodyLoaded.again {outcome : Except (Failure × Locals) Locals}
    (loaded : BodyLoaded resolved_root plan_path steps outcome)
    (hrepeated : Repeated repository resolved_root steps)
    (hplaced : Placed repository root resolved_root) (husable : Usable resolved_root disk)
    (hrecorded : Recorded resolved_root disk loaded.lock) :
    (evaluateBody resolved_root plan_path).Ensures (Serves repository resolved_root)
      (fun disk' r => Usable resolved_root disk' ∧ r = outcome) disk := by
  have hsteps := loaded.steps_eq
  have hin {part : Trace} (h : ∀ step ∈ part, step ∈ loaded.cleaning ++ (loaded.opening ++
      (loaded.planning ++ (loaded.resolving ++ (loaded.locating ++ (loaded.loading ++
        loaded.rest)))))) : part ⊆ steps := fun step hstep => hsteps ▸ h step hstep
  have hcleaning : loaded.cleaning ⊆ steps := hin fun step hstep => by simp [hstep]
  rw [evaluateBody_eq]
  refine during_again (sound_validateEvaluateCleanState _ _) loaded.clean
    (hrepeated.answered hcleaning
      ((validateEvaluateCleanState_outside _).replay loaded.clean).1) fun d₁ h₁ => ?_
  refine during_again (sound_loadRiskPolicy _) loaded.policy_read
    (hrepeated.answered (hin fun step hstep => by simp [hstep])
      (loadRiskPolicy_outside.replay loaded.policy_read).1) fun d₂ h₂ => ?_
  refine during_again (sound_loadPlan _ _ _) loaded.plan_read
    (hrepeated.answered (hin fun step hstep => by simp [hstep])
      (loadPlan_outside loaded.plan_read)) fun d₃ h₃ => ?_
  refine during_again (sound_resolveLocalGitContext _ _) loaded.resolved
    (hrepeated.answered (hin fun step hstep => by simp [hstep])
      ((resolveLocalGitContext_outside _).replay loaded.resolved).1) fun d₄ h₄ => ?_
  have hsame : SameEvidence resolved_root disk d₄ := fun path hpath =>
    ((h₄ path hpath).trans (h₃ path hpath)).trans ((h₂ path hpath).trans (h₁ path hpath))
  refine during_exactly
    (safeEvidencePath_again hplaced (.inr rfl) lockName_mem (hsame.usable husable)) ?_
  have hfound : Recorded resolved_root (furnished resolved_root d₄) loaded.lock := by
    obtain ⟨content, hcontent, hparsed⟩ := hrecorded
    refine ⟨content, ?_, hparsed⟩
    rw [lockPath, furnished_file lockName_mem]
    exact (hsame _ (by simp [evidencePaths, lockPath])).trans hcontent
  refine during_exactly (loadPlanLock_again hfound) ?_
  have hrest : loaded.rest ⊆ steps := hin fun step hstep => by simp [hstep]
  have hasks : (evaluateLoaded resolved_root loaded.policy loaded.plan loaded.context
      loaded.lock).Asks _ (Op.Outside resolved_root) :=
    evaluateLoaded_asks (hrepeated.untracked hcleaning loaded.clean) _ _ _ _
  have houtside := hasks.replay (fun step hstep => hrepeated step (hrest hstep)) loaded.judged
  exact again_usable loaded.judged (hrepeated.answered hrest houtside)
    (hsame.usable husable).furnished

/-- The second `try` leaves the same local variables. -/
theorem runChecks_again {outcome : Except (Failure × Locals) Locals}
    (h : (evaluateBody resolved_root plan_path).Ensures (Serves repository resolved_root)
      (fun disk' r => Usable resolved_root disk' ∧ r = outcome) disk) :
    (runChecks resolved_root plan_path).Ensures (Serves repository resolved_root)
      (fun disk' r => Usable resolved_root disk' ∧ r = .ok (Locals.handled outcome)) disk := by
  refine Script.keeps_bind.mpr (Script.keeps_attempt.mpr (h.mono fun disk' r hr => ?_))
  obtain ⟨husable, rfl⟩ := hr
  cases r with
  | ok l => exact ⟨husable, rfl⟩
  | error error => exact ⟨husable, rfl⟩

omit [ByteRuntime] in
/-- A lock that agrees is restored. -/
theorem decideRestore_again {E : (op : Op) → op.Answer → Disk → Disk → Prop} {l : Locals}
    {lock : PlanLock} {current : Identity} (hlock : l.lock = some lock)
    (hagrees : validatePlanLock lock current.plan current.context = .ok ()) :
    (decideRestore l (some current)).Ensures E (fun found r => found = disk ∧ r = .ok (l, true))
      disk := by
  rw [decideRestore, hlock]
  simp only [hagrees]
  exact ⟨rfl, rfl⟩

omit [ByteRuntime] in
/-- The two last writes of a run that restores the lock. -/
theorem record_again {l : Locals} {lock : PlanLock} {path : Str} (hlock : l.lock = some lock)
    (hevaluation : evaluationFromValues path l = evaluation) {content content' : Bytes}
    (hcontent : jsonBytes (planLockPayload lock) = .ok content)
    (hcontent' : jsonBytes evaluation.toDict = .ok content')
    (husable : Usable resolved_root disk)
    (hharness : disk (evidenceDirectory resolved_root) = some .directory) :
    (record resolved_root (evaluationPath resolved_root) path l true true).Ensures
      (Serves repository resolved_root) (fun _ r => r = .ok evaluation) disk := by
  have hwritten : (writeEvidence resolved_root (evaluationPath resolved_root) l.lock
      (evaluationFromValues path l)).Ensures (Serves repository resolved_root)
      (fun _ r => r = .ok ()) disk := by
    rw [hlock, hevaluation]
    exact writeEvidence_again hcontent hcontent' husable hharness
  unfold record
  refine Script.keeps_bind.mpr (Script.keeps_attempt.mpr ?_)
  refine hwritten.mono fun d r hr => ?_
  subst hr
  exact congrArg Except.ok hevaluation

/-- **A second evaluation** of what a run that has passed has left, by a repository that answers as
it did in that run. -/
theorem PassingRun.again (run : PassingRun root plan_path steps evaluation)
    (hrepeated : Repeated repository run.resolved_root steps)
    (husable : Usable run.resolved_root disk)
    (hrecorded : Recorded run.resolved_root disk run.loaded.lock)
    {content content' : Bytes}
    (hcontent : jsonBytes (planLockPayload run.loaded.lock) = .ok content)
    (hcontent' : jsonBytes evaluation.toDict = .ok content') :
    (evaluate root plan_path).Ensures (Serves repository run.resolved_root)
      (fun _ r => r = .ok evaluation) disk := by
  obtain ⟨hplaced, -⟩ := run.placed hrepeated
  have hin {part : Trace} (h : ∀ step ∈ part, step ∈ run.opening ++ (run.checking ++
      (run.rechecking ++ (run.locating ++ run.writing)))) : part ⊆ steps :=
    fun step hstep => run.steps_eq ▸ h step hstep
  have hchecking : run.checking ⊆ steps := hin fun step hstep => by simp [hstep]
  have hrechecking : run.rechecking ⊆ steps := hin fun step hstep => by simp [hstep]
  rw [evaluate_eq]
  refine exactly_bind (exactly_attempt (openEvidence_again hplaced husable)) ?_
  set opened := (furnished run.resolved_root disk).set (evaluationPath run.resolved_root) none
  have hopened {path : Path} (hne : path ≠ evaluationPath run.resolved_root) :
      opened path = furnished run.resolved_root disk path := Disk.set_of_ne hne _
  have hlock : lockPath run.resolved_root ≠ evaluationPath run.resolved_root :=
    fun heq => absurd (Path.child_inj.mp heq).2 (by decide)
  have hkept : opened (lockPath run.resolved_root) = disk (lockPath run.resolved_root) :=
    (hopened hlock).trans (furnished_file lockName_mem)
  have hopened_usable : Usable run.resolved_root opened :=
    husable.furnished.set_file evaluationName_mem (.inl rfl)
  have hrecorded : Recorded run.resolved_root opened run.loaded.lock := by
    obtain ⟨content, hcontent, hparsed⟩ := hrecorded
    exact ⟨content, hkept.trans hcontent, hparsed⟩
  have hrepeated_checking : Repeated repository run.resolved_root run.checking :=
    fun step hstep => hrepeated step (hchecking hstep)
  refine returns_bind (runChecks_again (run.loaded.again hrepeated_checking hplaced hopened_usable
    hrecorded)) fun d₁ h₁ => ?_
  have hcleaning : run.loaded.cleaning ⊆ run.checking := fun step hstep => by
    rw [run.loaded.steps_eq]
    exact List.mem_append_left _ hstep
  have houtside := currentIdentity_outside (hrepeated_checking.untracked hcleaning run.loaded.clean)
    (fun step hstep => hrepeated step (hrechecking hstep)) (recheck_replay run.rechecked)
  refine returns_bind (again_usable run.rechecked (hrepeated.answered hrechecking houtside) h₁)
    fun d₂ h₂ => ?_
  refine exactly_bind (decideRestore_again run.lock_eq run.agrees) ?_
  have hwrite : (decideWrite run.resolved_root (evaluationPath run.resolved_root) run.l
      true).Ensures (Serves repository run.resolved_root) (fun found r =>
        found = furnished run.resolved_root d₂ ∧ r = .ok (run.l, true)) d₂ :=
    exactly_bind (exactly_attempt (recheckPaths_again hplaced h₂)) ⟨rfl, rfl⟩
  refine exactly_bind hwrite ?_
  exact record_again run.lock_eq run.evaluation_eq.symm hcontent hcontent' h₂.furnished
    furnished_harness

end Again

section Preserved

variable [ByteRuntime] {foreign : Disk → Disk → Prop} {root plan_path : Path} {steps : Trace}
  {evaluation : Evaluation} {disk disk' : Disk}

end Preserved

namespace Sample

/-- What the repository answers after the commit. -/
def served (op : Op) : op.Answer :=
  (machine committedGit cleaningRunner (.ok passedPreflight) repository op).1

/-- Outside of the evidence the disk is that of the repository, and the name of the temporary file
is free. -/
def unchanged (disk : Disk) : Op → Bool
  | .lstat path => path ∈ evidencePaths root || decide
    ((machine committedGit cleaningRunner (.ok passedPreflight) disk (.lstat path)).1 =
      served (.lstat path))
  | .readBytes path => path ∈ evidencePaths root || decide
    ((machine committedGit cleaningRunner (.ok passedPreflight) disk (.readBytes path)).1 =
      served (.readBytes path))
  | .createTemporary directory => decide (disk (directory.child ("tmp" ++ ("1" : Str))) = none)
  | _ => true

end Sample

end CoffeeOrder.Harness
