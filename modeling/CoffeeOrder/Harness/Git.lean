import CoffeeOrder.Harness.System
import CoffeeOrder.Kit.Segments

/-!
# What the harness learns from Git

The branch and the commits of a run, the changed paths, and the hash of the diff.
-/

namespace CoffeeOrder.Harness

open Kit Python

/-- `GitContext`. -/
structure GitContext where
  branch : Str
  target_branch : Str
  base_tip_sha : Str
  merge_base_sha : Str
  candidate_head_sha : Str
  tested_revision_sha : Str
  deriving DecidableEq

/-- `_git_diff_error`. -/
def gitDiffError (reason : Str) : Failure := .HarnessViolation .FAIL "git.diff" reason

/-- `raw.decode("ascii")`. -/
def decodeAscii (raw : Bytes) : Option Str :=
  if raw.all (· < 0x80) then some (raw.map fun b => Bytes.codePoint b.toNat) else none

/-- `re.fullmatch(r"(?:[ACDMTUXB]|[RC][0-9]{0,3})", status)`. -/
def isNameStatus : Str → Bool
  | [] => false
  | letter :: digits =>
    (letter ∈ ("ACDMTUXB" : Str) && digits = []) ||
      (letter ∈ ("RC" : Str) && digits.length ≤ 3 && digits.all CodePoint.isDigit)

/-- `_decode_git_path`. -/
def decodeGitPath (raw : Bytes) : Except Failure Str := do
  raiseIf (raw = []) (gitDiffError "git diff path가 비어 있습니다.")
  return Bytes.decodeSurrogateescape raw

/-- The status of an entry. -/
def parseStatus (raw_status : Bytes) : Except Failure Str := do
  let some status := decodeAscii raw_status
    | throw (gitDiffError "git name-status 상태값은 ASCII여야 합니다.")
  raiseIf (!isNameStatus status)
    (gitDiffError ("알 수 없는 git name-status 상태값입니다: " ++ status))
  return status

/-- The loop of `parse_name_status`. -/
def nameStatusPaths : List Bytes → Except Failure (List Str)
  | [] => return []
  | raw_status :: tokens => do
    let status ← parseStatus raw_status
    let incomplete := gitDiffError "git name-status token stream이 불완전합니다."
    if status.startsWith "R" || status.startsWith "C" then
      match tokens with
      | source :: target :: rest =>
        let source ← decodeGitPath source
        let target ← decodeGitPath target
        return source :: target :: (← nameStatusPaths rest)
      | _ => throw incomplete
    else
      match tokens with
      | path :: rest =>
        let path ← decodeGitPath path
        return path :: (← nameStatusPaths rest)
      | [] => throw incomplete

/-- `parse_name_status`. -/
def parseNameStatus (raw : Bytes) : Except Failure (List Str) :=
  if raw = [] then return []
  else do
    raiseIf (raw.getLast? ≠ some 0)
      (gitDiffError "git name-status token stream이 NUL로 끝나지 않습니다.")
    nameStatusPaths (Bytes.split raw.dropLast 0)

/-- `parse_nul_paths`. -/
def parseNulPaths (raw : Bytes) : Except Failure (List Str) :=
  if raw = [] then return []
  else do
    raiseIf (raw.getLast? ≠ some 0) (gitDiffError "git path token stream이 NUL로 끝나지 않습니다.")
    (Bytes.split raw.dropLast 0).mapM decodeGitPath

section Errors

/-- The violation of a listing that cannot be read. -/
def IsGitDiffError (e : Failure) : Prop := ∃ reason, e = gitDiffError reason

/-- `_decode_git_path` raises nothing but a violation of `git.diff`. -/
theorem decodeGitPath_raises (raw : Bytes) : ErrorsIn IsGitDiffError (decodeGitPath raw) :=
  (ErrorsIn.raiseIf ⟨_, rfl⟩).bind fun _ _ => .pure

/-- Reading a status raises nothing but a violation of `git.diff`. -/
theorem parseStatus_raises (raw_status : Bytes) :
    ErrorsIn IsGitDiffError (parseStatus raw_status) := by
  unfold parseStatus
  cases decodeAscii raw_status with
  | none => exact ErrorsIn.error.mpr ⟨_, rfl⟩
  | some status => exact (ErrorsIn.raiseIf ⟨_, rfl⟩).bind fun _ _ => .pure

/-- Reading the records raises nothing but a violation of `git.diff`. -/
theorem nameStatusPaths_raises (tokens : List Bytes) :
    ErrorsIn IsGitDiffError (nameStatusPaths tokens) := by
  have path (raw : Bytes) := decodeGitPath_raises raw
  induction tokens using nameStatusPaths.induct with
  | case1 => exact .pure
  | case2 raw_status tokens hmoved hplain =>
    rw [nameStatusPaths]
    refine (parseStatus_raises _).bind fun status _ => ErrorsIn.ite ?_ ?_
    · rcases tokens with _ | ⟨source, _ | ⟨target, rest⟩⟩
      · exact ErrorsIn.error.mpr ⟨_, rfl⟩
      · exact ErrorsIn.error.mpr ⟨_, rfl⟩
      · refine (path source).bind fun _ _ => (path target).bind fun _ _ => ?_
        exact hmoved.bind fun _ _ => .pure
    · rcases tokens with _ | ⟨name, rest⟩
      · exact ErrorsIn.error.mpr ⟨_, rfl⟩
      · exact (path name).bind fun _ _ => hplain.bind fun _ _ => .pure

/-- `parse_name_status` raises nothing but a violation of `git.diff`. -/
theorem parseNameStatus_raises (raw : Bytes) : ErrorsIn IsGitDiffError (parseNameStatus raw) :=
  ErrorsIn.pure.ite ((ErrorsIn.raiseIf ⟨_, rfl⟩).bind fun _ _ =>
    nameStatusPaths_raises _)

/-- `_parse_nul_paths` raises nothing but a violation of `git.diff`. -/
theorem parseNulPaths_raises (raw : Bytes) : ErrorsIn IsGitDiffError (parseNulPaths raw) :=
  ErrorsIn.pure.ite ((ErrorsIn.raiseIf ⟨_, rfl⟩).bind fun _ _ =>
    ErrorsIn.mapM decodeGitPath_raises)

end Errors

section Listings

/-- A path as Git prints it before a NUL. -/
def IsToken (token : Bytes) : Prop := token ≠ [] ∧ 0 ∉ token

instance (token : Bytes) : Decidable (IsToken token) := inferInstanceAs (Decidable (_ ∧ _))

/-- The letter of a change that is neither a rename nor a copy. -/
def IsPlainStatus (status : Bytes) : Prop :=
  status ∈ [Bytes.ofString "A", Bytes.ofString "D", Bytes.ofString "M", Bytes.ofString "T"]

instance (status : Bytes) : Decidable (IsPlainStatus status) := inferInstanceAs (Decidable (_ ∈ _))

/-- A token is decoded as a path. -/
theorem decodeGitPath_eq_ok {token : Bytes} (h : IsToken token) :
    decodeGitPath token = .ok (Bytes.decodeSurrogateescape token) :=
  Checked.raiseIf_bind_eq_ok.mpr ⟨h.1, rfl⟩

/-- A listing of paths is read back. -/
theorem parseNulPaths_terminated {tokens : List Bytes} (h : ∀ token ∈ tokens, IsToken token) :
    parseNulPaths (terminated 0 tokens) = .ok (tokens.map Bytes.decodeSurrogateescape) := by
  rcases eq_or_ne tokens [] with rfl | hne
  · rfl
  obtain ⟨hlast, hsplit⟩ := splitOn_terminated hne fun token htoken => (h token htoken).2
  rw [parseNulPaths, if_neg (terminated_ne_nil hne)]
  refine Checked.raiseIf_bind_eq_ok.mpr ⟨not_not.mpr hlast, ?_⟩
  rw [Bytes.split, hsplit]
  exact Checked.mapM_eq_ok_map fun token htoken => decodeGitPath_eq_ok (h token htoken)

/-- A plain status is accepted and names one path. -/
theorem parseStatus_eq_ok {status : Bytes} (h : IsPlainStatus status) :
    ∃ letter, parseStatus status = .ok letter ∧
      (letter.startsWith "R" || letter.startsWith "C") = false := by
  simp only [IsPlainStatus, List.mem_cons, List.not_mem_nil, or_false] at h
  rcases h with rfl | rfl | rfl | rfl <;> exact ⟨_, rfl, by decide⟩

/-- Changes that are neither renames nor copies name one path each. -/
theorem nameStatusPaths_plain {entries : List (Bytes × Bytes)}
    (h : ∀ entry ∈ entries, IsPlainStatus entry.1 ∧ IsToken entry.2) :
    nameStatusPaths (entries.flatMap fun entry => [entry.1, entry.2]) =
      .ok (entries.map fun entry => Bytes.decodeSurrogateescape entry.2) := by
  induction entries with
  | nil => rfl
  | cons entry entries ih =>
    obtain ⟨⟨hstatus, hpath⟩, hrest⟩ := List.forall_mem_cons.mp h
    obtain ⟨letter, hletter, hplain⟩ := parseStatus_eq_ok hstatus
    rw [List.flatMap_cons, List.cons_append, List.singleton_append, nameStatusPaths]
    refine Checked.bind_eq_ok.mpr ⟨letter, hletter, ?_⟩
    rw [if_neg (by rw [hplain]; exact Bool.false_ne_true)]
    exact Checked.bind_eq_ok.mpr
      ⟨_, decodeGitPath_eq_ok hpath, Checked.bind_eq_ok.mpr ⟨_, ih hrest, rfl⟩⟩

/-- A listing of such changes is read back. -/
theorem parseNameStatus_terminated {entries : List (Bytes × Bytes)}
    (h : ∀ entry ∈ entries, IsPlainStatus entry.1 ∧ IsToken entry.2) :
    parseNameStatus (terminated 0 (entries.flatMap fun entry => [entry.1, entry.2])) =
      .ok (entries.map fun entry => Bytes.decodeSurrogateescape entry.2) := by
  rcases eq_or_ne entries [] with rfl | hne
  · rfl
  have hne' : (entries.flatMap fun entry => [entry.1, entry.2]) ≠ [] := by
    obtain ⟨entry, rest, rfl⟩ := List.exists_cons_of_ne_nil hne
    exact List.cons_ne_nil _ _
  have hnul : ∀ token ∈ entries.flatMap fun entry => [entry.1, entry.2], 0 ∉ token := by
    intro token htoken
    obtain ⟨entry, hentry, hmem⟩ := List.mem_flatMap.mp htoken
    obtain ⟨hstatus, hpath⟩ := h entry hentry
    rcases List.mem_pair.mp hmem with rfl | rfl
    · simp only [IsPlainStatus, List.mem_cons, List.not_mem_nil, or_false] at hstatus
      rcases hstatus with heq | heq | heq | heq <;> rw [heq] <;> decide
    · exact hpath.2
  obtain ⟨hlast, hsplit⟩ := splitOn_terminated hne' hnul
  rw [parseNameStatus, if_neg (terminated_ne_nil hne')]
  refine Checked.raiseIf_bind_eq_ok.mpr ⟨not_not.mpr hlast, ?_⟩
  rw [Bytes.split, hsplit, nameStatusPaths_plain h]

end Listings

section Scripts

variable [ByteRuntime]

/-- `_decode_git_output`. -/
def decodeGitOutput (raw : Bytes) : Str := Str.strip (ByteRuntime.decodeReplace raw)

/-- `run_git`. -/
def runGit (root : Path) (args : List Str) : HarnessM Bytes := do
  let command : List Str := ("git" : Str) :: args
  match ← ask (.run command root false) with
  | .error error =>
    if error.isOSError then
      throw (.HarnessViolation .BLOCKED "git.repository"
        ("git 명령을 실행할 수 없습니다: " ++ error.text))
    else throw (.raised error)
  | .ok result =>
    if result.returncode ≠ 0 then
      throw (.HarnessViolation .BLOCKED "git.repository" (Str.join " " command ++ " 실패: " ++
        (decodeGitOutput result.stderr).orElse "명령 실행 실패"))
    return result.stdout

/-- Git exited with zero if `run_git` returns. -/
theorem runGit_replay_ok {root : Path} {args : List Str} {steps : Trace} {stdout : Bytes}
    (h : (runGit root args).replay steps = some (.ok stdout)) :
    ∃ result : CompletedProcess, result.returncode = 0 ∧ result.stdout = stdout ∧
      steps = [⟨.run (("git" : Str) :: args) root false, .ok result⟩] := by
  obtain ⟨answer, rest, rfl, hrest⟩ := Script.replay_ask.mp h
  cases answer with
  | error error =>
    dsimp only [Script.bind] at hrest
    split at hrest
    · cases (Script.replay_throw.mp hrest).2
    · cases (Script.replay_throw.mp hrest).2
  | ok result =>
    by_cases hzero : result.returncode = 0
    · simp only [hzero, ne_eq, not_true_eq_false, if_false, Script.bind] at hrest
      obtain ⟨rfl, hstdout⟩ := Script.replay_done.mp hrest
      exact ⟨result, hzero, (Except.ok.inj hstdout).symm, rfl⟩
    · simp only [hzero, ne_eq, not_false_eq_true, if_true, Script.bind] at hrest
      cases (Script.replay_throw.mp hrest).2

/-- The commits of a run, which have to be full lowercase SHAs. -/
def validateIdentities (base_tip_sha merge_base_sha candidate_head_sha : Str) :
    Except Failure Unit := do
  let identities : List (Str × Str) :=
    [("base tip", base_tip_sha), ("merge-base", merge_base_sha), ("HEAD", candidate_head_sha)]
  let malformed := (identities.filter fun entry => !isSha entry.2).map Prod.fst
  raiseIf (malformed ≠ []) (.HarnessViolation .FAIL "git.base"
    ("유효한 lowercase 40자리 SHA가 아닙니다: " ++ Str.join ", " malformed))

/-- `resolve_local_git_context`. -/
def resolveLocalGitContext (root : Path) (plan : Plan) : HarnessM GitContext := do
  let _ ← (runGit root ["fetch", "--quiet", "origin", plan.target_branch]).mapError
    (.restate fun _ _ reason => .HarnessViolation .BLOCKED "git.base"
      ("origin/" ++ plan.target_branch ++ " fetch 실패: " ++ reason))
  let branch := Str.strip
    (Bytes.decodeSurrogateescape (← runGit root ["branch", "--show-current"]))
  if branch = [] then
    throw (.HarnessViolation .REPLAN_REQUIRED "git.branch"
      "detached HEAD에서는 prepare를 실행할 수 없습니다.")
  liftM (validateBranch branch plan.issue)
  let base_ref : Str := "refs/remotes/origin/" ++ plan.target_branch
  let base_tip_sha := decodeGitOutput (← runGit root ["rev-parse", base_ref])
  let merge_base_sha := decodeGitOutput (← runGit root ["merge-base", "HEAD", base_tip_sha])
  let candidate_head_sha := decodeGitOutput (← runGit root ["rev-parse", "HEAD"])
  liftM (validateIdentities base_tip_sha merge_base_sha candidate_head_sha)
  return ⟨branch, plan.target_branch, base_tip_sha, merge_base_sha, candidate_head_sha,
    candidate_head_sha⟩

omit [ByteRuntime] in
/-- The identities of the context are accepted if all of them are SHAs. -/
theorem validateIdentities_eq_ok {base_tip_sha merge_base_sha candidate_head_sha : Str} :
    validateIdentities base_tip_sha merge_base_sha candidate_head_sha = .ok () ↔
      isSha base_tip_sha = true ∧ isSha merge_base_sha = true ∧
        isSha candidate_head_sha = true := by
  rw [validateIdentities, Checked.raiseIf_eq_ok, not_not, List.map_eq_nil_iff,
    List.filter_eq_nil_iff]
  simp

/-- What a context satisfies that was resolved for a plan. -/
structure GitContext.WellFormed (context : GitContext) (plan : Plan) : Prop where
  branch_issue : validateBranch context.branch plan.issue = .ok ()
  target_branch : context.target_branch = plan.target_branch
  base_tip_sha : isSha context.base_tip_sha = true
  merge_base_sha : isSha context.merge_base_sha = true
  candidate_head_sha : isSha context.candidate_head_sha = true
  tested_revision_sha : context.tested_revision_sha = context.candidate_head_sha

/-- A context that is returned is well formed, whatever Git answers. -/
theorem resolveLocalGitContext_wellFormed {root : Path} {plan : Plan} {steps : Trace}
    {context : GitContext}
    (h : (resolveLocalGitContext root plan).replay steps = some (.ok context)) :
    context.WellFormed plan := by
  have hmeets : (resolveLocalGitContext root plan).Meets (fun _ _ => True) (fun _ => True)
      (·.WellFormed plan) := by
    refine (Script.Meets.anything _).bind fun _ _ => (Script.Meets.anything _).bind fun raw _ => ?_
    refine Script.Meets.ite trivial ?_
    refine (Script.Meets.ofExcept (fun _ _ => trivial) fun _ h => h).bind fun _ hbranch => ?_
    refine (Script.Meets.anything _).bind fun _ _ => (Script.Meets.anything _).bind fun _ _ => ?_
    refine (Script.Meets.anything _).bind fun _ _ => ?_
    refine (Script.Meets.ofExcept (fun _ _ => trivial) fun _ h => h).bind fun _ hshas => ?_
    obtain ⟨hbase, hmerge, hhead⟩ := validateIdentities_eq_ok.mp hshas
    exact ⟨hbranch, rfl, hbase, hmerge, hhead, rfl⟩
  exact (hmeets.replay (fun _ _ => trivial) h).2 context rfl

/-- `parse(run_git(root, *args))`. -/
def parsed (parse : Bytes → Except Failure (List Str)) (root : Path) (args : List Str) :
    HarnessM (List Str) := do
  liftM (parse (← runGit root args))

/-- `parse_name_status(run_git(root, *args))`. -/
def nameStatus (root : Path) (args : List Str) : HarnessM (List Str) :=
  parsed parseNameStatus root args

/-- `parse_nul_paths(run_git(root, *args))`. -/
def nulPaths (root : Path) (args : List Str) : HarnessM (List Str) := parsed parseNulPaths root args

/-- The untracked paths. -/
def untrackedPaths (root : Path) : HarnessM (List Str) :=
  nulPaths root ["ls-files", "--others", "--exclude-standard", "-z"]

/-- Git exited with zero, and printed what was parsed. -/
theorem parsed_replay_ok {parse : Bytes → Except Failure (List Str)} {root : Path}
    {args : List Str} {steps : Trace} {paths : List Str}
    (h : (parsed parse root args).replay steps = some (.ok paths)) :
    ∃ result : CompletedProcess, result.returncode = 0 ∧ parse result.stdout = .ok paths ∧
      steps = [⟨.run (("git" : Str) :: args) root false, .ok result⟩] := by
  obtain ⟨stdout, first, second, rfl, hfirst, hsecond⟩ := Script.replay_bind_ok.mp h
  obtain ⟨result, hzero, rfl, rfl⟩ := runGit_replay_ok hfirst
  obtain ⟨rfl, hparse⟩ := Script.replay_ofExcept.mp hsecond
  exact ⟨result, hzero, hparse.symm, List.append_nil _⟩

/-- `collect_worktree_paths`. -/
def collectWorktreePaths (root : Path) : HarnessM (List Str) := do
  let cached ← nameStatus root ["diff", "--cached", "--name-status", "-z", "--find-renames"]
  let unstaged ← nameStatus root ["diff", "--name-status", "-z", "--find-renames"]
  let untracked ← untrackedPaths root
  return Str.sortedSet (cached ++ unstaged ++ untracked)

/-- `collect_local_changed_paths`. -/
def collectLocalChangedPaths (root : Path) (merge_base_sha : Str) : HarnessM (List Str) := do
  let committed ← nameStatus root ["diff", "--name-status", "-z", "--find-renames",
    "--find-copies-harder", merge_base_sha, "HEAD", "--"]
  let cached ← nameStatus root ["diff", "--cached", "--name-status", "-z", "--find-renames",
    "--find-copies-harder", "--"]
  let unstaged ← nameStatus root ["diff", "--name-status", "-z", "--find-renames",
    "--find-copies-harder", "--"]
  let untracked ← untrackedPaths root
  return Str.sortedSet (committed ++ cached ++ unstaged ++ untracked)

/-- The content of an untracked file, as the hash takes it in. -/
def untrackedContent (resolved_root : Path) (relative_path : Str) : Script Exc Op.Answer Bytes := do
  let candidate := resolved_root.join (.ofStr relative_path)
  match ← (← ask (.lstat candidate)) with
  | .symlink => Bytes.encode true (← (← ask (.readlink candidate)))
  | .regular =>
    let resolved ← (← ask (.resolve candidate true))
    let _ ← resolved.relativeTo resolved_root
    (← ask (.readBytes candidate))
  | _ => throw ⟨.OSError, "regular file 또는 symlink가 아닙니다."⟩

/-- What `compute_diff_hash` adds to the digest for an untracked file. -/
def untrackedDigest (resolved_root : Path) (relative_path : Str) : HarnessM Bytes := do
  let content ← (untrackedContent resolved_root relative_path).mapError fun error =>
    if error.isOSError || error.isValueError then
      gitDiffError ("untracked diff 내용을 읽을 수 없습니다: " ++ Runtime.repr relative_path ++ ": " ++
        error.text)
    else .raised error
  let name ← liftM (orRaise (Bytes.encode true relative_path))
  return name ++ [0] ++ content ++ [0]

/-- `compute_diff_hash`. -/
def computeDiffHash (root : Path) (context : GitContext) (changed_paths : List Str) :
    HarnessM Str := do
  let (raw_diff, untracked_paths) ← Script.mapError (fun
      | .raised error => gitDiffError ("diff hash 입력을 읽을 수 없습니다: " ++ error.text)
      | violation => violation) do
    let raw_diff ← runGit root
      ["diff", "--binary", "--no-ext-diff", "--no-textconv", context.merge_base_sha, "--"]
    return (raw_diff, ← untrackedPaths root)
  let selected_untracked := Str.sortedSet (untracked_paths.filter (· ∈ changed_paths))
  let resolved_root ← resolve root
  let entries ← selected_untracked.mapM (untrackedDigest resolved_root)
  return ByteRuntime.sha256 (raw_diff ++ entries.flatten)

section Refusals

omit [ByteRuntime] in
/-- A violation of `git.diff` does not claim to pass. -/
theorem gitDiffError_rejects {reason : Str} : (gitDiffError reason).Rejects := Failure.rejects_of_ne

omit [ByteRuntime] in
/-- Nor does any violation known to be one of `git.diff`. -/
theorem rejects_of_isGitDiffError {e : Failure} (h : IsGitDiffError e) : e.Rejects := by
  obtain ⟨reason, rfl⟩ := h
  exact gitDiffError_rejects

/-- `run_git` is sound. -/
theorem sound_runGit (root : Path) (args : List Str) : Sound (runGit root args) := by
  refine (sound_ask (.run _ root false) trivial).bind fun answer => ?_
  cases answer with
  | error error => exact .ite Failure.rejects_of_ne trivial
  | ok result => exact .ite Failure.rejects_of_ne trivial

omit [ByteRuntime] in
/-- A refusal of the identities does not claim to pass. -/
theorem validateIdentities_rejects (base_tip_sha merge_base_sha candidate_head_sha : Str) :
    ErrorsIn Failure.Rejects (validateIdentities base_tip_sha merge_base_sha candidate_head_sha) :=
  ErrorsIn.raiseIf Failure.rejects_of_ne

/-- `resolve_local_git_context` is sound. -/
theorem sound_resolveLocalGitContext (root : Path) (plan : Plan) :
    Sound (resolveLocalGitContext root plan) := by
  refine ((sound_runGit _ _).mapError fun e _ =>
    Failure.restate_rejects (fun _ _ _ => Failure.rejects_of_ne) e).bind fun _ => ?_
  refine (sound_runGit _ _).bind fun _ => .ite Failure.rejects_of_ne ?_
  refine (sound_lift (validateBranch_rejects _ _)).bind fun _ => (sound_runGit _ _).bind fun _ => ?_
  refine (sound_runGit _ _).bind fun _ => (sound_runGit _ _).bind fun _ => ?_
  exact (sound_lift (validateIdentities_rejects _ _ _)).bind fun _ => .pure

/-- Asking Git for a name status is sound. -/
theorem sound_nameStatus (root : Path) (args : List Str) : Sound (nameStatus root args) :=
  (sound_runGit _ _).bind fun _ =>
    sound_lift ((parseNameStatus_raises _).mono fun _ => rejects_of_isGitDiffError)

/-- Asking Git for paths is sound. -/
theorem sound_nulPaths (root : Path) (args : List Str) : Sound (nulPaths root args) :=
  (sound_runGit _ _).bind fun _ =>
    sound_lift ((parseNulPaths_raises _).mono fun _ => rejects_of_isGitDiffError)

/-- `collect_worktree_paths` is sound. -/
theorem sound_collectWorktreePaths (root : Path) : Sound (collectWorktreePaths root) :=
  (sound_nameStatus _ _).bind fun _ => (sound_nameStatus _ _).bind fun _ =>
    (sound_nulPaths _ _).bind fun _ => .pure

/-- `collect_local_changed_paths` is sound. -/
theorem sound_collectLocalChangedPaths (root : Path) (merge_base_sha : Str) :
    Sound (collectLocalChangedPaths root merge_base_sha) :=
  (sound_nameStatus _ _).bind fun _ => (sound_nameStatus _ _).bind fun _ =>
    (sound_nameStatus _ _).bind fun _ => (sound_nulPaths _ _).bind fun _ => .pure

/-- Reading an untracked file writes nothing. -/
theorem untrackedContent_within (resolved_root : Path) (relative_path : Str) :
    (untrackedContent resolved_root relative_path).Within Op.Quiet fun _ => True := by
  refine ask_lift_within (.lstat _) trivial fun kind => ?_
  cases kind with
  | symlink => exact ask_lift_within (.readlink _) trivial fun _ => .ofExcept fun _ _ => trivial
  | regular =>
    refine ask_lift_within (.resolve _ true) trivial fun resolved => ?_
    refine (Script.Within.ofExcept fun _ _ => trivial).bind fun _ => ?_
    exact ⟨trivial, fun _ => .ofExcept fun _ _ => trivial⟩
  | _ => trivial

/-- Hashing an untracked file is sound. -/
theorem sound_untrackedDigest (resolved_root : Path) (relative_path : Str) :
    Sound (untrackedDigest resolved_root relative_path) := by
  refine ((untrackedContent_within _ _).mapError fun e _ => ?_).bind fun content => ?_
  · by_cases h : (e.isOSError || e.isValueError) = true
    · simp only [h, if_true]
      exact gitDiffError_rejects
    · simp only [h]
      trivial
  · exact (sound_orRaise _).bind fun _ => .pure

/-- `compute_diff_hash` is sound. -/
theorem sound_computeDiffHash (root : Path) (context : GitContext) (changed_paths : List Str) :
    Sound (computeDiffHash root context changed_paths) := by
  refine (Script.Within.mapError ((sound_runGit _ _).bind fun _ =>
    (sound_nulPaths _ _).bind fun _ => .pure) fun e he => ?_).bind fun listed => ?_
  · cases e with
    | HarnessViolation state check_id reason => exact he
    | raised error => exact gitDiffError_rejects
  · refine (sound_resolve _ _).bind fun resolved_root => ?_
    exact (Script.Within.mapM fun _ => sound_untrackedDigest _ _).bind fun _ => .pure

end Refusals

end Scripts

end CoffeeOrder.Harness
