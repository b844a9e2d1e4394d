import CoffeeOrder.Harness.System
import CoffeeOrder.Python.JsonText

/-!
# Evidence files

The directory `build/harness` and its files: which paths are accepted, how a stale file
is removed, and how a new one replaces it.
-/

namespace CoffeeOrder.Harness

open Kit Python

/-- `_evidence_path_error`. -/
def evidencePathError (reason : Str) : Failure := .HarnessViolation .FAIL "evidence.path" reason

/-- `except OSError`: a violation of evidence paths; other exceptions stay. -/
def evidenceOSError (reason : Str) (error : Exc) : Failure :=
  if error.isOSError then evidencePathError (reason ++ error.text) else .raised error

/-- `_strict_repository_root`. -/
def strictRepositoryRoot (root : Path) : HarnessM Path := do
  let (resolved_root, root_status) ← Script.mapError
      (evidenceOSError "repository root를 확인할 수 없습니다: ") do
    let resolved_root ← (← ask (.resolve root true))
    let root_status ← (← ask (.lstat resolved_root))
    return (resolved_root, root_status)
  if root_status ≠ .directory then
    throw (evidencePathError "repository root는 directory여야 합니다.")
  return resolved_root

/-- The status of an evidence directory, which is created if it is missing. -/
def evidenceDirectoryStatus (directory : Path) : HarnessM FileKind := do
  match ← ask (.lstat directory) with
  | .ok directory_status => return directory_status
  | .error error =>
    if error.type = .FileNotFoundError then
      match ← ask (.mkdir directory) with
      | .ok _ => pure ()
      | .error error =>
        if error.type = .FileExistsError then pure ()
        else throw (evidenceOSError
          ("evidence directory를 생성할 수 없습니다: " ++ directory.asPosix ++ ": ") error)
      match ← ask (.lstat directory) with
      | .ok directory_status => return directory_status
      | .error error => throw (evidenceOSError
          ("생성한 evidence directory를 확인할 수 없습니다: " ++ directory.asPosix ++ ": ") error)
    else throw (evidenceOSError
      ("evidence directory를 확인할 수 없습니다: " ++ directory.asPosix ++ ": ") error)

section Paths

variable [Runtime]

/-- `_ensure_safe_evidence_directory`. -/
def ensureSafeEvidenceDirectory (root directory : Path) : HarnessM Unit := do
  let directory_status ← evidenceDirectoryStatus directory
  if directory_status = .symlink then
    throw (evidencePathError
      ("evidence directory symlink는 허용되지 않습니다: " ++ directory.asPosix))
  if directory_status ≠ .directory then
    throw (evidencePathError ("evidence 경로는 directory여야 합니다: " ++ directory.asPosix))
  Script.mapError (fun error =>
      if error.isOSError || error.isValueError then
        evidencePathError ("evidence directory는 repository 내부여야 합니다: " ++ directory.asPosix)
      else .raised error) do
    let resolved_directory ← (← ask (.resolve directory true))
    let _ ← resolved_directory.relativeTo root

/-- The evidence directory of a repository. -/
def evidenceDirectory (resolved_root : Path) : Path := (resolved_root.child "build").child "harness"

/-- `_safe_evidence_path`. -/
def safeEvidencePath (root : Path) (filename : Str) : HarnessM Path := do
  let resolved_root ← strictRepositoryRoot root
  ensureSafeEvidenceDirectory resolved_root (resolved_root.child "build")
  ensureSafeEvidenceDirectory resolved_root (evidenceDirectory resolved_root)
  let path := (evidenceDirectory resolved_root).child filename
  match ← ask (.lstat path) with
  | .error error =>
    if error.type = .FileNotFoundError then return path
    else throw (evidenceOSError
      ("evidence file을 확인할 수 없습니다: " ++ path.asPosix ++ ": ") error)
  | .ok target_status =>
    if target_status = .symlink then
      throw (evidencePathError ("evidence file symlink는 허용되지 않습니다: " ++ path.asPosix))
    if target_status ≠ .regular then
      throw (evidencePathError ("evidence file은 regular file이어야 합니다: " ++ path.asPosix))
    return path

/-- The name of the plan lock. -/
def lockName : Str := "plan.lock.json"

/-- The name of the evaluation. -/
def evaluationName : Str := "evaluation.json"

/-- `safe_evidence_lock_path`. -/
def safeEvidenceLockPath (root : Path) : HarnessM Path := safeEvidencePath root lockName

/-- `safe_evidence_evaluation_path`. -/
def safeEvidenceEvaluationPath (root : Path) : HarnessM Path := safeEvidencePath root evaluationName

/-- `_remove_stale_evidence`. -/
def removeStaleEvidence (path : Path) (label : Str) : HarnessM Path := do
  match ← ask (.lstat path) with
  | .error error =>
    if error.type = .FileNotFoundError then return path
    else throw (evidenceOSError ("기존 " ++ label ++ "을 확인할 수 없습니다: ") error)
  | .ok path_status =>
    if path_status ≠ .regular then
      throw (evidencePathError (label ++ " 경로는 regular file이어야 합니다."))
    match ← ask (.unlink path false) with
    | .ok _ => return path
    | .error error =>
      throw (evidenceOSError ("기존 " ++ label ++ "을 제거할 수 없습니다: ") error)

/-- `remove_stale_evaluation`. -/
def removeStaleEvaluation (root : Path) : HarnessM Path := do
  removeStaleEvidence (← safeEvidenceEvaluationPath root) "evaluation"

/-- An accepted path is that of the file in an evidence directory. -/
theorem safeEvidencePath_meets (root : Path) (filename : Str) :
    (safeEvidencePath root filename).Meets (fun _ _ => True) (fun _ => True) fun path =>
      ∃ resolved_root, path = (evidenceDirectory resolved_root).child filename := by
  refine (Script.Meets.anything _).bind fun resolved_root _ => ?_
  refine (Script.Meets.anything _).bind fun _ _ => (Script.Meets.anything _).bind fun _ _ => ?_
  refine meets_ask fun status _ => ?_
  cases status with
  | error error => exact .ite ⟨resolved_root, rfl⟩ trivial
  | ok target_status => exact .ite trivial (.ite trivial ⟨resolved_root, rfl⟩)

end Paths

/-- The bytes that `write_json_atomic` writes. -/
def jsonBytes (payload : Json) : Except Exc Bytes := do
  let rendered ← JsonText.dumps false payload
  match Bytes.encode false (rendered ++ "\n") with
  | .ok encoded => return encoded
  | .error error =>
    if error.type = .UnicodeEncodeError then
      Bytes.encode false ((← JsonText.dumps true payload) ++ "\n")
    else .error error

/-- The body of the `with` statement of `write_json_atomic`, which closes the file. -/
def writeTemporary (temporary_path : Path) (encoded : Bytes) : Script Exc Op.Answer Unit := do
  tryCatch (do
      liftM (← ask (.write temporary_path encoded))
      liftM (← ask (.flush temporary_path))
      liftM (← ask (.fsync temporary_path)))
    fun error => do
      liftM (← ask (.close temporary_path))
      throw error
  liftM (← ask (.close temporary_path))

/-- `write_json_atomic`. -/
def writeJsonAtomic (path : Path) (payload : Json) : Script Exc Op.Answer Unit := do
  let encoded ← jsonBytes payload
  let temporary_path ← (← ask (.createTemporary path.parent))
  tryCatch (do
      writeTemporary temporary_path encoded
      liftM (← ask (.replace temporary_path path)))
    fun error => do
      liftM (← ask (.unlink temporary_path true))
      throw error

section Refusals

/-- The violation of an unsafe path does not claim to pass. -/
theorem evidencePathError_rejects {reason : Str} : (evidencePathError reason).Rejects :=
  Failure.rejects_of_ne

/-- The violation of a failing operation does not claim to pass. -/
theorem evidenceOSError_rejects (reason : Str) (error : Exc) :
    (evidenceOSError reason error).Rejects := by
  unfold evidenceOSError
  split
  · exact evidencePathError_rejects
  · trivial

/-- `_strict_repository_root` is sound. -/
theorem sound_strictRepositoryRoot (root : Path) : Sound (strictRepositoryRoot root) := by
  refine (Script.Within.mapError (ask_lift_within (.resolve root true) trivial fun resolved =>
    ask_lift_within (.lstat resolved) trivial fun _ => .pure)
    fun e _ => evidenceOSError_rejects _ e).bind fun found => ?_
  exact .ite evidencePathError_rejects .pure

/-- Looking at an evidence directory is sound. -/
theorem sound_evidenceDirectoryStatus {directory : Path} (h : (Op.mkdir directory).Quiet) :
    Sound (evidenceDirectoryStatus directory) := by
  refine (sound_ask (.lstat directory) trivial).bind fun status => ?_
  cases status with
  | ok directory_status => exact .pure
  | error error =>
    refine .ite ((sound_ask (.mkdir directory) h).bind fun created => ?_)
      (evidenceOSError_rejects _ _)
    have hlast : Sound (do
        match ← ask (.lstat directory) with
        | .ok directory_status => return directory_status
        | .error error => throw (evidenceOSError ("생성한 evidence directory를 확인할 수 없습니다: " ++
            directory.asPosix ++ ": ") error)) := by
      refine (sound_ask (.lstat directory) trivial).bind fun status => ?_
      cases status with
      | ok directory_status => exact .pure
      | error error => exact evidenceOSError_rejects _ _
    cases created with
    | ok => exact hlast
    | error error => exact .ite hlast (evidenceOSError_rejects _ _)

variable [Runtime]

/-- `_ensure_safe_evidence_directory` is sound. -/
theorem sound_ensureSafeEvidenceDirectory (root : Path) {directory : Path}
    (h : (Op.mkdir directory).Quiet) : Sound (ensureSafeEvidenceDirectory root directory) := by
  refine (sound_evidenceDirectoryStatus h).bind fun status => ?_
  refine .ite evidencePathError_rejects (.ite evidencePathError_rejects ?_)
  refine Script.Within.mapError (ask_lift_within (.resolve directory true) trivial fun resolved =>
    (Script.Within.ofExcept fun _ _ => trivial).bind fun _ => .pure) fun e _ => ?_
  split
  · exact evidencePathError_rejects
  · trivial

/-- `_safe_evidence_path` is sound. -/
theorem sound_safeEvidencePath (root : Path) (filename : Str) :
    Sound (safeEvidencePath root filename) := by
  refine (sound_strictRepositoryRoot root).bind fun resolved_root => ?_
  refine (sound_ensureSafeEvidenceDirectory _ ⟨_, .inl rfl⟩).bind fun _ => ?_
  refine (sound_ensureSafeEvidenceDirectory _ ⟨_, .inr rfl⟩).bind fun _ => ?_
  refine (sound_ask (.lstat _) trivial).bind fun status => ?_
  cases status with
  | error error => exact .ite .pure (evidenceOSError_rejects _ _)
  | ok target_status =>
    exact .ite evidencePathError_rejects (.ite evidencePathError_rejects .pure)

/-- The operation is quiet or removes a file. -/
def Op.Removing (op : Op) : Prop := op.Quiet ∨ ∃ path, op = .unlink path false

omit [Runtime] in
/-- Removing stale evidence removes files only, and no violation claims to pass. -/
theorem removeStaleEvidence_within (path : Path) (label : Str) :
    (removeStaleEvidence path label).Within Op.Removing Failure.Rejects := by
  refine .bind ⟨.inl trivial, fun _ => trivial⟩ fun status => ?_
  cases status with
  | error error => exact .ite .pure (evidenceOSError_rejects _ _)
  | ok path_status =>
    refine .ite evidencePathError_rejects
      (.bind ⟨.inr ⟨path, rfl⟩, fun _ => trivial⟩ fun removed => ?_)
    cases removed with
    | ok _ => exact .pure
    | error error => exact evidenceOSError_rejects _ _

end Refusals

section Written

/-- The steps of a write that succeeds. -/
def writtenSteps (path temporary_path : Path) (content : Bytes) : Trace :=
  [⟨.createTemporary path.parent, .ok temporary_path⟩, ⟨.write temporary_path content, .ok ()⟩,
    ⟨.flush temporary_path, .ok ()⟩, ⟨.fsync temporary_path, .ok ()⟩,
    ⟨.close temporary_path, .ok ()⟩, ⟨.replace temporary_path path, .ok ()⟩]

/-- An operation and a raise never return. -/
theorem cleanUp_never {op : Op} {next : op.Answer → Except Exc Unit} (error : Exc) (rest : Trace)
    (b : Unit) :
    (do liftM (next (← ask op)); throw error : Script Exc Op.Answer Unit).replay rest ≠
      some (.ok b) := by
  refine Script.Meets.never ((Script.Meets.anything _).bind fun answer _ => ?_) rest b
  refine (Script.Meets.anything (liftM (next answer))).bind fun _ _ => ?_
  trivial

/-- A temporary file is written, flushed, synced and closed. -/
theorem writeTemporary_replay_ok {temporary_path : Path} {encoded : Bytes} {steps : Trace} :
    (writeTemporary temporary_path encoded).replay steps = some (.ok ()) ↔
      steps = [⟨.write temporary_path encoded, .ok ()⟩, ⟨.flush temporary_path, .ok ()⟩,
        ⟨.fsync temporary_path, .ok ()⟩, ⟨.close temporary_path, .ok ()⟩] := by
  refine Script.replay_bind_ok.trans ⟨?_, ?_⟩
  · rintro ⟨⟨⟩, body, last, rfl, hbody, hlast⟩
    have htry := (Script.replay_tryCatch_ok cleanUp_never).mp hbody
    obtain ⟨written, ⟨⟩, flushing, rfl, rfl, hflush⟩ := Script.replay_ask_bind_ok.mp htry
    obtain ⟨flushed, ⟨⟩, syncing, rfl, rfl, hsync⟩ := Script.replay_ask_bind_ok.mp hflush
    obtain ⟨synced, rfl, hsynced⟩ := Script.replay_ask_ofExcept.mp hsync
    obtain ⟨closed, rfl, hclosed⟩ := Script.replay_ask_ofExcept.mp hlast
    obtain rfl : synced = .ok () := hsynced.symm
    obtain rfl : closed = .ok () := hclosed.symm
    rfl
  · rintro rfl
    refine ⟨(), [⟨.write temporary_path encoded, .ok ()⟩, ⟨.flush temporary_path, .ok ()⟩,
      ⟨.fsync temporary_path, .ok ()⟩], [⟨.close temporary_path, .ok ()⟩], rfl,
      (Script.replay_tryCatch_ok cleanUp_never).mpr ?_,
      Script.replay_ask_ofExcept.mpr ⟨_, rfl, rfl⟩⟩
    refine Script.replay_ask_bind_ok.mpr ⟨_, (), _, rfl, rfl, ?_⟩
    refine Script.replay_ask_bind_ok.mpr ⟨_, (), _, rfl, rfl, ?_⟩
    exact Script.replay_ask_ofExcept.mpr ⟨_, rfl, rfl⟩

/-- A write that returns has taken the steps of a write that succeeds. -/
theorem writeJsonAtomic_replay_ok {path : Path} {payload : Json} {steps : Trace} :
    (writeJsonAtomic path payload).replay steps = some (.ok ()) ↔
      ∃ content temporary_path, jsonBytes payload = .ok content ∧
        steps = writtenSteps path temporary_path content := by
  refine Script.replay_bind_ok.trans ⟨?_, ?_⟩
  · rintro ⟨content, first, rest, rfl, hfirst, hrest⟩
    obtain ⟨rfl, hcontent⟩ := Script.replay_ofExcept.mp hfirst
    obtain ⟨created, temporary_path, body, rfl, rfl, hbody⟩ := Script.replay_ask_bind_ok.mp hrest
    have htry := (Script.replay_tryCatch_ok cleanUp_never).mp hbody
    obtain ⟨⟨⟩, written, last, rfl, hwritten, hlast⟩ := Script.replay_bind_ok.mp htry
    obtain rfl := writeTemporary_replay_ok.mp hwritten
    obtain ⟨replaced, rfl, hreplaced⟩ := Script.replay_ask_ofExcept.mp hlast
    refine ⟨content, temporary_path, hcontent.symm, ?_⟩
    obtain rfl : replaced = .ok () := hreplaced.symm
    rfl
  · rintro ⟨content, temporary_path, hcontent, rfl⟩
    refine ⟨content, [], _, rfl, Script.replay_ofExcept.mpr ⟨rfl, hcontent.symm⟩, ?_⟩
    refine Script.replay_ask_bind_ok.mpr ⟨_, temporary_path, _, rfl, rfl, ?_⟩
    refine (Script.replay_tryCatch_ok cleanUp_never).mpr (Script.replay_bind_ok.mpr ?_)
    exact ⟨(), [⟨.write temporary_path content, .ok ()⟩, ⟨.flush temporary_path, .ok ()⟩,
      ⟨.fsync temporary_path, .ok ()⟩, ⟨.close temporary_path, .ok ()⟩],
      [⟨.replace temporary_path path, .ok ()⟩], rfl, writeTemporary_replay_ok.mpr rfl,
      Script.replay_ask_ofExcept.mpr ⟨_, rfl, rfl⟩⟩

/-- The operations of a write: only the content is written, and only onto the path. -/
def WriteOp (path : Path) (content : Except Exc Bytes) : Op → Prop
  | .createTemporary directory => directory = path.parent
  | .write _ written => content = .ok written
  | .replace _ target => target = path
  | .flush _ | .fsync _ | .close _ => True
  | .unlink _ missing_ok => missing_ok = true
  | _ => False

section Operations

variable {G : Op → Prop} {op : Op} {next : op.Answer → Except Exc Unit}

/-- One operation that may fail. -/
theorem perform_within (h : G op) :
    (do liftM (next (← ask op)) : Script Exc Op.Answer Unit).Within G fun _ => True :=
  ⟨h, fun _ => Script.Within.ofExcept fun _ _ => trivial⟩

/-- A cleanup before the exception is raised again. -/
theorem cleanUp_within (h : G op) (error : Exc) :
    (do liftM (next (← ask op)); throw error : Script Exc Op.Answer Unit).Within G fun _ => True :=
  ⟨h, fun _ => (Script.Within.ofExcept fun _ _ => trivial).bind fun _ => trivial⟩

/-- One operation that may fail, and what follows. -/
theorem perform_bind_within (h : G op) {p : Script Exc Op.Answer Unit}
    (hp : p.Within G fun _ => True) :
    (do liftM (next (← ask op)); p : Script Exc Op.Answer Unit).Within G fun _ => True :=
  ⟨h, fun _ => (Script.Within.ofExcept fun _ _ => trivial).bind fun _ => hp⟩

end Operations

/-- Writing a temporary file only writes to that file. -/
theorem writeTemporary_within (path temporary_path : Path) (content : Bytes) :
    (writeTemporary temporary_path content).Within (WriteOp path (.ok content)) fun _ => True := by
  refine .bind (.tryCatch ?_ fun e (_ : True) => ?_) fun _ => ?_
  · refine perform_bind_within (by rfl) ?_
    refine perform_bind_within trivial ?_
    exact perform_within trivial
  · exact cleanUp_within trivial e
  · exact perform_within trivial

/-- Whether it returns or raises, a write issues no other operation. -/
theorem writeJsonAtomic_within (path : Path) (payload : Json) :
    (writeJsonAtomic path payload).Within (WriteOp path (jsonBytes payload)) fun _ => True := by
  unfold writeJsonAtomic
  cases jsonBytes payload with
  | error error => trivial
  | ok content =>
    refine ⟨rfl, fun created => ?_⟩
    refine (Script.Within.ofExcept fun _ _ => trivial).bind fun temporary => ?_
    refine ((writeTemporary_within path temporary content).bind fun _ =>
      perform_within (by rfl)).tryCatch fun e _ => cleanUp_within (by rfl) e

end Written

end CoffeeOrder.Harness
