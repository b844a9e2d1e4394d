import CoffeeOrder.Harness.Prepare
import CoffeeOrder.Harness.World

/-!
# Evidence in a tree of files

An operation reaches the file that its path names only through real directories; behind a symlink
it may do anything anywhere. The evidence paths are accepted only where that cannot happen, so
nothing outside of `build` is touched.
-/

namespace CoffeeOrder.Harness

open Kit Python

section Tree

/-- `path.is_relative_to(ancestor)`. -/
def IsRelativeTo (path ancestor : Path) : Prop :=
  ancestor.root = path.root ∧ ancestor.parts <+: path.parts

/-- Everything above the path is a real directory. -/
structure Reached (disk : Disk) (path : Path) : Prop where
  absolute : path.isAbsolute = true
  plain : (".." : Str) ∉ path.parts
  through : ∀ ancestor, IsRelativeTo path ancestor → ancestor ≠ path →
    disk ancestor = some .directory

/-- The files whose directories have to be real for the operation to do what it says. -/
def Op.places : Op → List Path
  | .lstat path | .mkdir path | .unlink path _ | .write path _ | .flush path | .fsync path
  | .close path => [path]
  | .createTemporary directory => [directory.child "tmp"]
  | .replace path target => [path, target]
  | _ => []

/-- What an operation on files raises is an `OSError`. -/
def RaisesOSError : (op : Op) → op.Answer → Prop
  | .resolve _ _, .error error | .lstat _, .error error | .mkdir _, .error error
  | .unlink _ _, .error error => error.isOSError = true
  | _, _ => True

/-- A path that is resolved is that of something real; a real directory is resolved to itself. -/
def Resolves (disk : Disk) : (op : Op) → op.Answer → Prop
  | .resolve path _, .ok found =>
    Reached disk found ∧ (Reached disk path → disk path = some .directory → found = path)
  | _, _ => True

/-- What an operation does to a tree of files that nobody else changes. Nothing is known of what
it does where its path leads through a symlink. -/
structure Acts (op : Op) (answer : op.Answer) (disk disk' : Disk) : Prop where
  raises : RaisesOSError op answer
  resolves : Resolves disk op answer
  looks : ∀ path, op = .lstat path → disk' = disk
  effect : (∀ place ∈ op.places, Reached disk place) →
    Effect (fun disk disk' => disk' = disk) op answer disk disk'

variable {disk disk' : Disk} {directory path : Path} {name name' : Str}

/-- A file is below its directory. -/
theorem isRelativeTo_child (directory : Path) (name : Str) :
    IsRelativeTo (directory.child name) directory := ⟨rfl, List.prefix_append ..⟩

/-- It is below everything that its directory is below. -/
theorem IsRelativeTo.child {ancestor : Path} (h : IsRelativeTo directory ancestor) (name : Str) :
    IsRelativeTo (directory.child name) ancestor := ⟨h.1, h.2.trans (List.prefix_append ..)⟩

/-- What is above a file is not in its directory. -/
theorem above_child {ancestor : Path} (h : IsRelativeTo (directory.child name) ancestor)
    (hne : ancestor ≠ directory.child name) : IsRelativeTo directory ancestor := by
  obtain ⟨hroot, hparts⟩ := h
  refine ⟨hroot, (List.prefix_concat_iff.mp hparts).resolve_left fun heq => hne ?_⟩
  exact congrArg₂ Python.Path.mk hroot heq

/-- A directory is not below one of its files. -/
theorem ne_child {ancestor : Path} (h : IsRelativeTo directory ancestor) :
    ancestor ≠ directory.child name := by
  rintro rfl
  have hlength := h.2.length_le
  simp [Path.child] at hlength

/-- A file is reached if its directory is real and reached. -/
theorem Reached.child (h : Reached disk directory) (hdirectory : disk directory = some .directory)
    (hname : name ≠ "..") : Reached disk (directory.child name) where
  absolute := h.absolute
  plain := by simpa [Path.child] using ⟨h.plain, hname.symm⟩
  through ancestor hancestor hne := by
    by_cases heq : ancestor = directory
    · rw [heq, hdirectory]
    · exact h.through ancestor (above_child hancestor hne) heq

/-- The directory of a file that is reached is real. -/
theorem Reached.real_above (h : Reached disk (directory.child name)) :
    disk directory = some .directory :=
  h.through directory (isRelativeTo_child ..) (ne_child ⟨rfl, List.prefix_rfl⟩)

/-- Files are reached the same way if nothing above them changes. -/
theorem Reached.of_same (h : Reached disk (directory.child name))
    (hsame : ∀ ancestor, IsRelativeTo directory ancestor → disk' ancestor = disk ancestor) :
    Reached disk' (directory.child name) where
  absolute := h.absolute
  plain := h.plain
  through ancestor hancestor hne :=
    (hsame ancestor (above_child hancestor hne)).trans (h.through ancestor hancestor hne)

/-- Another file of the directory may change. -/
theorem Reached.set_child (h : Reached disk (directory.child name)) (entry : Option Entry) :
    Reached (disk.set (directory.child name') entry) (directory.child name) :=
  h.of_same fun _ hancestor => Disk.set_of_ne (ne_child hancestor) _

end Tree

section Locating

variable {disk : Disk} {directory resolved_root : Path} {name filename : Str}

/-- A path that is not accepted is reported as such. -/
def Refusal (failure : Failure) : Prop :=
  ∃ reason, failure = .HarnessViolation .FAIL "evidence.path" reason

/-- So is an operation that fails. -/
theorem evidenceOSError_refusal {error : Exc} (reason : Str) (h : error.isOSError = true) :
    Refusal (evidenceOSError reason error) := ⟨_, if_pos h⟩

/-- The root is a real directory that is reached. -/
theorem strictRepositoryRoot_reached (root : Path) :
    (strictRepositoryRoot root).Ensures Acts (fun disk' r => disk' = disk ∧ match r with
      | .ok found => Reached disk found ∧ disk found = some .directory
      | .error failure => Refusal failure) disk := by
  refine Script.keeps_bind.mpr (Script.keeps_tryCatch.mpr ?_)
  refine ensures_perform_bind fun answer disk' hE => ?_
  obtain rfl : disk' = disk := hE.effect nofun
  cases answer with
  | error error => exact ⟨rfl, evidenceOSError_refusal _ hE.raises⟩
  | ok found =>
    have hreached : Reached disk' found := hE.resolves.1
    refine ensures_perform_bind fun status disk'' hE => ?_
    obtain rfl := hE.looks _ rfl
    cases status with
    | error error => exact ⟨rfl, evidenceOSError_refusal _ hE.raises⟩
    | ok root_status =>
      refine Script.keeps_ite (fun _ => ⟨rfl, _, rfl⟩) fun hdirectory => ?_
      obtain ⟨-, entry, hentry, hkind⟩ := hE.effect (List.forall_mem_singleton.mpr hreached)
      obtain rfl := not_not.mp hdirectory
      cases entry with
      | directory => exact ⟨rfl, hreached, hentry⟩
      | _ => cases hkind

/-- Nothing has changed but that the directory may have been created. -/
def Created (path : Path) (disk disk' : Disk) : Prop :=
  disk' = disk ∨ disk' = disk.set path (some .directory)

/-- Creating it does not change how it is reached. -/
theorem Created.reached {disk' : Disk} (h : Created (directory.child name) disk disk')
    (hreached : Reached disk (directory.child name)) : Reached disk' (directory.child name) := by
  obtain rfl | rfl := h
  · exact hreached
  · exact hreached.set_child _

/-- The status is that of what stands there, or what has been created. -/
theorem evidenceDirectoryStatus_reached (h : Reached disk (directory.child name)) :
    (evidenceDirectoryStatus (directory.child name)).Ensures Acts (fun disk' r =>
      Created (directory.child name) disk disk' ∧ match r with
        | .ok kind => ∃ entry, disk' (directory.child name) = some entry ∧ entry.kind = kind
        | .error failure => Refusal failure) disk := by
  have hlook {disk₁ disk₂ : Disk} {status : Except Exc FileKind}
      (hcreated : Created (directory.child name) disk disk₁)
      (hE : Acts (.lstat (directory.child name)) status disk₁ disk₂) :
      Created (directory.child name) disk disk₂ ∧
        (∀ kind, status = .ok kind →
          ∃ entry, disk₂ (directory.child name) = some entry ∧ entry.kind = kind) ∧
        ∀ error, status = .error error → error.isOSError = true := by
    obtain rfl := hE.looks _ rfl
    have hreached := hcreated.reached h
    refine ⟨hcreated, ?_, ?_⟩
    · rintro kind rfl
      exact (hE.effect (List.forall_mem_singleton.mpr hreached)).2
    · rintro error rfl
      exact hE.raises
  refine Script.ensures_ask fun status disk₁ hE => ?_
  obtain ⟨hcreated, hok, herror⟩ := hlook (.inl rfl) hE
  cases status with
  | ok kind => exact ⟨hcreated, hok kind rfl⟩
  | error error =>
    refine Script.keeps_ite (fun _ => ?_) fun _ =>
      ⟨hcreated, evidenceOSError_refusal _ (herror error rfl)⟩
    obtain rfl := hE.looks _ rfl
    refine Script.ensures_ask fun created disk₂ hmkdir => ?_
    have heffect := hmkdir.effect (List.forall_mem_singleton.mpr h)
    cases created with
    | ok _ =>
      refine Script.ensures_ask fun status disk₃ hE => ?_
      obtain ⟨hcreated, hok, herror⟩ := hlook (.inr heffect.2) hE
      cases status with
      | ok kind => exact ⟨hcreated, hok kind rfl⟩
      | error error => exact ⟨hcreated, evidenceOSError_refusal _ (herror error rfl)⟩
    | error error =>
      obtain rfl : disk₂ = disk₁ := heffect
      refine Script.keeps_ite (fun _ => ?_) fun _ =>
        ⟨.inl rfl, evidenceOSError_refusal _ hmkdir.raises⟩
      refine Script.ensures_ask fun status disk₃ hE => ?_
      obtain ⟨hcreated, hok, herror⟩ := hlook (.inl rfl) hE
      cases status with
      | ok kind => exact ⟨hcreated, hok kind rfl⟩
      | error error => exact ⟨hcreated, evidenceOSError_refusal _ (herror error rfl)⟩

variable [Runtime]

/-- An accepted directory is real. -/
theorem ensureSafeEvidenceDirectory_reached (h : Reached disk (directory.child name))
    (hbelow : IsRelativeTo (directory.child name) resolved_root) :
    (ensureSafeEvidenceDirectory resolved_root (directory.child name)).Ensures Acts
      (fun disk' r => Created (directory.child name) disk disk' ∧ match r with
        | .ok _ => disk' (directory.child name) = some .directory
        | .error failure => Refusal failure) disk := by
  refine Script.keeps_bind.mpr ((evidenceDirectoryStatus_reached h).mono fun disk' r hr => ?_)
  obtain ⟨hcreated, hr⟩ := hr
  cases r with
  | error failure => exact ⟨hcreated, hr⟩
  | ok kind =>
    refine Script.keeps_ite (fun _ => ⟨hcreated, _, rfl⟩) fun _ => ?_
    refine Script.keeps_ite (fun _ => ⟨hcreated, _, rfl⟩) fun hkind => ?_
    obtain ⟨entry, hentry, rfl⟩ := hr
    have hreal : disk' (directory.child name) = some .directory := by
      cases entry with
      | directory => exact hentry
      | _ => exact absurd nofun hkind
    have hreached := hcreated.reached h
    refine Script.keeps_tryCatch.mpr (ensures_perform_bind fun answer disk'' hE => ?_)
    obtain rfl : disk'' = disk' := hE.effect nofun
    cases answer with
    | error error =>
      have herror : error.isOSError = true := hE.raises
      refine ⟨hcreated, _, if_pos ?_⟩
      rw [herror, Bool.true_or]
    | ok found =>
      obtain rfl : found = directory.child name := hE.resolves.2 hreached hreal
      refine Script.keeps_bind.mpr (Script.keeps_ofExcept.mpr ?_)
      rw [Path.relativeTo, if_pos ⟨hbelow.1.symm, hbelow.2⟩]
      exact ⟨hcreated, hreal⟩

end Locating

section Files

variable {disk disk' start : Disk} {directory resolved_root : Path} {name name' filename : Str}

/-- All files of a directory are reached the same way. -/
theorem Reached.sibling (h : Reached disk (directory.child name)) (hname : name' ≠ "..") :
    Reached disk (directory.child name') where
  absolute := h.absolute
  plain := by
    have hplain : (".." : Str) ∉ directory.parts := fun hmem =>
      h.plain (List.mem_append_left _ hmem)
    simpa [Path.child] using ⟨hplain, hname.symm⟩
  through ancestor hancestor hne := by
    have habove := above_child hancestor hne
    exact h.through ancestor (habove.child name) (ne_child habove)

/-- The file can be used: everything above it is a real directory, and nothing but a regular file
stands there. -/
structure Stands (directory : Path) (filename : Str) (disk : Disk) : Prop where
  reached : Reached disk (directory.child filename)
  regular : disk (directory.child filename) = none ∨
    ∃ content, disk (directory.child filename) = some (.file content)

/-- In the directory nothing has changed but the file and temporary files, and it can be used. -/
structure Filed (directory : Path) (filename : Str) (start disk : Disk) : Prop where
  only : ∀ path, path ≠ directory.child filename → ¬IsTemporary directory path →
    disk path = start path
  stands : Stands directory filename disk

/-- At first nothing has changed. -/
theorem Filed.refl (h : Stands directory filename disk) : Filed directory filename disk disk :=
  ⟨fun _ _ _ => rfl, h⟩

/-- The file may change. -/
theorem Filed.set_file (h : Filed directory filename start disk) {entry : Option Entry}
    (hentry : entry = none ∨ ∃ content, entry = some (.file content)) :
    Filed directory filename start (disk.set (directory.child filename) entry) where
  only path hpath htemporary := (Disk.set_of_ne hpath _).trans (h.only path hpath htemporary)
  stands := ⟨h.stands.reached.set_child _, by rwa [Disk.set_self]⟩

/-- A temporary file may change. -/
theorem Filed.set_temporary (hname : filename ∈ evidenceNames)
    (h : Filed directory filename start disk) {temporary_path : Path}
    (htemporary : IsTemporary directory temporary_path) (entry : Option Entry) :
    Filed directory filename start (disk.set temporary_path entry) := by
  obtain ⟨suffix, rfl⟩ := htemporary
  refine ⟨fun path hpath htemporary => ?_, h.stands.reached.set_child _, ?_⟩
  · have hne : path ≠ directory.child ("tmp" ++ suffix) := fun heq => htemporary ⟨suffix, heq⟩
    exact (Disk.set_of_ne hne _).trans (h.only path hpath htemporary)
  · have hne : directory.child filename ≠ directory.child ("tmp" ++ suffix) := fun heq =>
      (evidenceNames_distinct hname).2.2 suffix (Path.child_inj.mp heq).2
    rw [Disk.set_of_ne hne]
    exact h.stands.regular

/-- The file and a temporary file that is open. -/
def Opened (directory : Path) (filename : Str) (start : Disk) (temporary_path : Path)
    (disk : Disk) : Prop :=
  Filed directory filename start disk ∧ ∃ content, disk temporary_path = some (.file content)

/-- Temporary files are reached like the file. -/
theorem Stands.temporary (h : Stands directory filename disk) {temporary_path : Path}
    (htemporary : IsTemporary directory temporary_path) : Reached disk temporary_path := by
  obtain ⟨suffix, rfl⟩ := htemporary
  refine h.reached.sibling fun heq => ?_
  have hfirst : List.take 1 (".." : Str) = List.take 1 ("tmp" : Str) := by
    rw [← heq]
    rfl
  exact absurd hfirst (by decide)

/-- What is done to the open file changes no other one. -/
theorem Opened.onFile (hname : filename ∈ evidenceNames) {temporary_path : Path}
    (htemporary : IsTemporary directory temporary_path) {op : Op} {answer : op.Answer}
    (hop : OnFile temporary_path op) (hE : Acts op answer disk disk')
    (h : Opened directory filename start temporary_path disk) :
    Opened directory filename start temporary_path disk' := by
  have hreached := List.forall_mem_singleton.mpr (h.1.stands.temporary htemporary)
  have htorn {disk' : Disk} (htorn : Torn temporary_path disk disk') :
      Opened directory filename start temporary_path disk' := by
    obtain ⟨content, rfl⟩ := htorn
    exact ⟨h.1.set_temporary hname htemporary _, content, Disk.set_self ..⟩
  have hkept {answer : Except Exc Unit} {disk' : Disk}
      (hE : Kept temporary_path answer disk disk') :
      Opened directory filename start temporary_path disk' := by
    cases answer with
    | ok _ =>
      obtain rfl : disk' = disk := hE
      exact h
    | error error => exact htorn hE
  cases op with
  | write path content =>
    obtain rfl : path = temporary_path := hop
    have heffect := hE.effect hreached
    cases answer with
    | ok _ =>
      obtain ⟨old, -, rfl⟩ := heffect
      exact ⟨h.1.set_temporary hname htemporary _, _, Disk.set_self ..⟩
    | error error => exact htorn heffect
  | flush path =>
    obtain rfl : path = temporary_path := hop
    exact hkept (hE.effect hreached)
  | fsync path =>
    obtain rfl : path = temporary_path := hop
    exact hkept (hE.effect hreached)
  | close path =>
    obtain rfl : path = temporary_path := hop
    exact hkept (hE.effect hreached)
  | _ => exact hop.elim

/-- **Writes stay where they are sent**: nothing changes but the file and temporary files next to
it. -/
theorem writeJsonAtomic_filed (hname : filename ∈ evidenceNames) (payload : Json)
    (h : Stands directory filename disk) :
    (writeJsonAtomic (directory.child filename) payload).Ensures Acts
      (fun disk' _ => Filed directory filename disk disk') disk := by
  refine Script.keeps_bind.mpr (Script.keeps_ofExcept.mpr ?_)
  cases jsonBytes payload with
  | error error => exact .refl h
  | ok content =>
    refine ensures_perform_bind fun created disk' hcreate => ?_
    rw [Path.parent_child] at hcreate
    have heffect := hcreate.effect
      (List.forall_mem_singleton.mpr (h.temporary ⟨[], by rw [List.append_nil]⟩))
    cases created with
    | error error =>
      obtain rfl : disk' = disk := heffect
      exact .refl h
    | ok temporary_path =>
      obtain ⟨htemporary, -, rfl⟩ := heffect
      have hopened : Opened directory filename disk temporary_path
          (disk.set temporary_path (some (.file []))) :=
        ⟨(Filed.refl h).set_temporary hname htemporary _, [], Disk.set_self ..⟩
      -- what the cleanup removes is the temporary file
      have hcleanup {disk' : Disk} (error : Exc)
          (hopened : Opened directory filename disk temporary_path disk') :
          (do liftM (← ask (.unlink temporary_path true)); throw error :
            Script Exc Op.Answer Unit).Ensures Acts
            (fun disk' _ => Filed directory filename disk disk') disk' := by
        refine ensures_perform_bind fun removed disk'' hE => ?_
        have heffect := hE.effect
          (List.forall_mem_singleton.mpr (hopened.1.stands.temporary htemporary))
        cases removed with
        | ok _ =>
          obtain rfl : disk'' = _ := heffect
          exact hopened.1.set_temporary hname htemporary _
        | error error =>
          obtain rfl : disk'' = disk' := heffect
          exact hopened.1
      refine Script.keeps_tryCatch.mpr (Script.keeps_bind.mpr ?_)
      have hfilled := (writeTemporary_onFile temporary_path content).keeps (E := Acts)
        (I := Opened directory filename disk temporary_path)
        (fun _ _ _ _ hop hE hdisk => hdisk.onFile hname htemporary hop hE) hopened
      refine (hfilled.imp fun _ _ => trivial).mono fun disk' r hr => ?_
      cases r with
      | error error => exact hcleanup error hr.1
      | ok _ =>
        refine ensures_perform fun replaced disk'' hE => ?_
        obtain ⟨hfiled, written, hwritten⟩ := hr.1
        have heffect := hE.effect (List.forall_mem_cons.mpr
          ⟨hfiled.stands.temporary htemporary, List.forall_mem_singleton.mpr hfiled.stands.reached⟩)
        cases replaced with
        | error error =>
          obtain rfl : disk'' = disk' := heffect
          exact hcleanup error hr.1
        | ok _ =>
          obtain ⟨entry, hentry, rfl⟩ := heffect
          obtain rfl := Option.some.inj (hwritten.symm.trans hentry)
          exact (hfiled.set_temporary hname htemporary _).set_file (.inr ⟨_, rfl⟩)

/-- A stale file is removed, and nothing else changes. -/
theorem removeStaleEvidence_filed (label : Str) (h : Stands directory filename disk) :
    (removeStaleEvidence (directory.child filename) label).Ensures Acts
      (fun disk' r => Filed directory filename disk disk' ∧ match r with
        | .ok path => path = directory.child filename
        | .error failure => Refusal failure) disk := by
  refine Script.ensures_ask fun status disk' hE => ?_
  obtain rfl := hE.looks _ rfl
  cases status with
  | error error =>
    refine Script.keeps_ite (fun _ => ⟨.refl h, rfl⟩) fun _ => ?_
    exact ⟨.refl h, evidenceOSError_refusal _ hE.raises⟩
  | ok path_status =>
    refine Script.keeps_ite (fun _ => ⟨.refl h, _, rfl⟩) fun _ => ?_
    refine Script.ensures_ask fun removed disk'' hE => ?_
    have heffect := hE.effect (List.forall_mem_singleton.mpr h.reached)
    cases removed with
    | ok _ =>
      obtain rfl : disk'' = _ := heffect
      exact ⟨(Filed.refl h).set_file (.inl rfl), rfl⟩
    | error error =>
      obtain rfl : disk'' = disk' := heffect
      exact ⟨.refl h, evidenceOSError_refusal _ hE.raises⟩

end Files

section Uses

variable [ByteRuntime] {disk disk' disk'' start : Disk} {resolved_root : Path} {name : Str}

/-- `_safe_evidence_path` after the root. -/
def locateEvidence (resolved_root : Path) (filename : Str) : HarnessM Path := do
  ensureSafeEvidenceDirectory resolved_root (resolved_root.child "build")
  ensureSafeEvidenceDirectory resolved_root (evidenceDirectory resolved_root)
  let path := (evidenceDirectory resolved_root).child filename
  match ← ask (.lstat path) with
  | .error error =>
    if error.type = .FileNotFoundError then return path
    else throw (evidenceOSError
      ("evidence file을 확인할 수 없습니다: " ++ path.asPosix ++ ": ") error)
  | .ok target_status =>
    if target_status = .symlink then
      throw (evidencePathError ("evidence file symlink는 허용되지 않습니다: " ++ path.asPosix))
    if target_status ≠ .regular then
      throw (evidencePathError ("evidence file은 regular file이어야 합니다: " ++ path.asPosix))
    return path

/-- The root comes first. -/
theorem safeEvidencePath_eq (root : Path) (filename : Str) : safeEvidencePath root filename =
    strictRepositoryRoot root >>= (locateEvidence · filename) := rfl

/-- How the harness gets at an evidence file. -/
inductive Access
  | safeEvidenceLockPath
  | safeEvidenceEvaluationPath
  | removeStalePlanLock
  | removeStaleEvaluation

/-- The file. -/
def Access.filename : Access → Str
  | .safeEvidenceLockPath | .removeStalePlanLock => lockName
  | .safeEvidenceEvaluationPath | .removeStaleEvaluation => evaluationName

/-- The function that is called. -/
def Access.script : Access → Path → HarnessM Path
  | .safeEvidenceLockPath => Harness.safeEvidenceLockPath
  | .safeEvidenceEvaluationPath => Harness.safeEvidenceEvaluationPath
  | .removeStalePlanLock => Harness.removeStalePlanLock
  | .removeStaleEvaluation => Harness.removeStaleEvaluation

/-- What it does after it has found the root. -/
def Access.located : Access → Path → HarnessM Path
  | .safeEvidenceLockPath, resolved_root => locateEvidence resolved_root lockName
  | .safeEvidenceEvaluationPath, resolved_root => locateEvidence resolved_root evaluationName
  | .removeStalePlanLock, resolved_root => do
    removeStaleEvidence (← locateEvidence resolved_root lockName) "plan lock"
  | .removeStaleEvaluation, resolved_root => do
    removeStaleEvidence (← locateEvidence resolved_root evaluationName) "evaluation"

/-- The root comes first in all of them. -/
theorem Access.script_eq (access : Access) (root : Path) :
    access.script root = strictRepositoryRoot root >>= access.located := by
  cases access with
  | safeEvidenceLockPath => rfl
  | safeEvidenceEvaluationPath => rfl
  | removeStalePlanLock =>
    change safeEvidencePath root lockName >>= (removeStaleEvidence · "plan lock") = _
    rw [safeEvidencePath_eq, Script.bind_assoc]
    rfl
  | removeStaleEvaluation =>
    change safeEvidencePath root evaluationName >>= (removeStaleEvidence · "evaluation") = _
    rw [safeEvidencePath_eq, Script.bind_assoc]
    rfl

/-- `write_json_atomic`, if there is something to write. -/
def writeGiven (payload : Option Json) (path : Path) : HarnessM Path := do
  if let some payload := payload then
    (writeJsonAtomic path payload).mapError .raised
  return path

/-- Getting at an evidence file, and writing it. -/
def useEvidence (access : Access) (payload : Option Json) (root : Path) : HarnessM Path := do
  writeGiven payload (← access.script root)

/-- Nothing has changed but the directories that were created, the file and temporary files. -/
def Touches (resolved_root : Path) (filename : Str) (disk disk' : Disk) : Prop :=
  ∀ path, path ≠ resolved_root.child "build" → path ≠ evidenceDirectory resolved_root →
    path ≠ (evidenceDirectory resolved_root).child filename →
    ¬IsTemporary (evidenceDirectory resolved_root) path → disk' path = disk path

omit [ByteRuntime] in
/-- One change after the other. -/
theorem Touches.trans (h : Touches resolved_root name disk disk')
    (h' : Touches resolved_root name disk' disk'') : Touches resolved_root name disk disk'' :=
  fun path hbuild hharness hfile htemporary =>
    (h' path hbuild hharness hfile htemporary).trans (h path hbuild hharness hfile htemporary)

omit [ByteRuntime] in
/-- A directory may be created. -/
theorem Created.touches {path : Path} (h : Created path disk disk')
    (hpath : path = resolved_root.child "build" ∨ path = evidenceDirectory resolved_root) :
    Touches resolved_root name disk disk' := by
  intro other hbuild hharness _ _
  obtain rfl | rfl := h
  · rfl
  · refine Disk.set_of_ne (fun heq => ?_) _
    obtain rfl | rfl := hpath
    · exact hbuild heq
    · exact hharness heq

omit [ByteRuntime] in
/-- Files of the directory may change. -/
theorem Filed.touches (h : Filed (evidenceDirectory resolved_root) name disk disk') :
    Touches resolved_root name disk disk' := fun path _ _ hfile htemporary =>
  h.only path hfile htemporary

/-- Nothing outside of `build` has changed. -/
def Confined (resolved_root : Path) (disk disk' : Disk) : Prop :=
  ∀ path, ¬IsRelativeTo path (resolved_root.child "build") → disk' path = disk path

omit [ByteRuntime] in
/-- All that may have changed is in `build`. -/
theorem Touches.confined (h : Touches resolved_root name disk disk') :
    Confined resolved_root disk disk' := by
  intro path hpath
  have hbelow (name : Str) : IsRelativeTo ((evidenceDirectory resolved_root).child name)
      (resolved_root.child "build") := (isRelativeTo_child _ "harness").child name
  refine h path ?_ ?_ ?_ ?_
  · rintro rfl
    exact hpath ⟨rfl, List.prefix_rfl⟩
  · rintro rfl
    exact hpath (isRelativeTo_child _ "harness")
  · rintro rfl
    exact hpath (hbelow _)
  · rintro ⟨suffix, rfl⟩
    exact hpath (hbelow _)

/-- The file has been located, or its path is refused. -/
def Located (resolved_root : Path) (filename : Str) (disk disk' : Disk) :
    Except Failure Path → Prop
  | .ok path => Touches resolved_root filename disk disk' ∧
      path = (evidenceDirectory resolved_root).child filename ∧
      Stands (evidenceDirectory resolved_root) filename disk'
  | .error failure => Touches resolved_root filename disk disk' ∧ Refusal failure

/-- A file is located below real directories only. -/
theorem locateEvidence_located (hname : name ∈ evidenceNames) (hroot : Reached disk resolved_root)
    (hreal : disk resolved_root = some .directory) :
    (locateEvidence resolved_root name).Ensures Acts (Located resolved_root name disk) disk := by
  have hplain : name ≠ ".." :=
    (by decide : ∀ name ∈ evidenceNames, name ≠ ("..": Str)) name hname
  have hbuild : Reached disk (resolved_root.child "build") := hroot.child hreal (by decide)
  refine (ensureSafeEvidenceDirectory_reached hbuild (isRelativeTo_child ..)).bind
    (fun disk₁ e hr => ⟨hr.1.touches (.inl rfl), hr.2⟩) fun disk₁ _ hr => ?_
  obtain ⟨hcreated, hbuild_real⟩ := hr
  have htouched : Touches resolved_root name disk disk₁ := hcreated.touches (.inl rfl)
  have hharness : Reached disk₁ (evidenceDirectory resolved_root) :=
    (hcreated.reached hbuild).child hbuild_real (by decide)
  refine (ensureSafeEvidenceDirectory_reached hharness
    ((isRelativeTo_child resolved_root "build").child "harness")).bind
    (fun disk₂ e hr => ⟨htouched.trans (hr.1.touches (.inr rfl)), hr.2⟩) fun disk₂ _ hr => ?_
  obtain ⟨hcreated', hharness_real⟩ := hr
  replace htouched := htouched.trans (hcreated'.touches (.inr rfl))
  have hfile : Reached disk₂ ((evidenceDirectory resolved_root).child name) :=
    (hcreated'.reached hharness).child hharness_real hplain
  refine Script.ensures_ask fun status disk₃ hE => ?_
  obtain rfl := hE.looks _ rfl
  have heffect := (hE.effect (List.forall_mem_singleton.mpr hfile)).2
  cases status with
  | error error =>
    refine Script.keeps_ite (fun hmissing => ?_) fun _ =>
      ⟨htouched, evidenceOSError_refusal _ hE.raises⟩
    exact ⟨htouched, rfl, hfile, .inl (heffect hmissing)⟩
  | ok target_status =>
    refine Script.keeps_ite (fun _ => ⟨htouched, _, rfl⟩) fun _ => ?_
    refine Script.keeps_ite (fun _ => ⟨htouched, _, rfl⟩) fun hregular => ?_
    obtain ⟨entry, hentry, hkind⟩ := heffect
    obtain rfl := not_not.mp hregular
    cases entry with
    | file content => exact ⟨htouched, rfl, hfile, .inr ⟨content, hentry⟩⟩
    | _ => cases hkind

/-- The same for every way to get at it. -/
theorem Access.located_located (access : Access) (hroot : Reached disk resolved_root)
    (hreal : disk resolved_root = some .directory) :
    (access.located resolved_root).Ensures Acts (Located resolved_root access.filename disk)
      disk := by
  have hremoved {name : Str} (hname : name ∈ evidenceNames) (label : Str) :
      (do removeStaleEvidence (← locateEvidence resolved_root name) label :
        HarnessM Path).Ensures Acts (Located resolved_root name disk) disk := by
    refine (locateEvidence_located hname hroot hreal).bind (fun _ _ hr => hr) fun disk₁ _ hr => ?_
    obtain ⟨htouched, rfl, hstands⟩ := hr
    refine (removeStaleEvidence_filed label hstands).mono fun disk₂ r hr => ?_
    obtain ⟨hfiled, hr⟩ := hr
    cases r with
    | ok path => exact ⟨htouched.trans hfiled.touches, hr, hfiled.stands⟩
    | error failure => exact ⟨htouched.trans hfiled.touches, hr⟩
  cases access with
  | safeEvidenceLockPath => exact locateEvidence_located (by decide) hroot hreal
  | safeEvidenceEvaluationPath => exact locateEvidence_located (by decide) hroot hreal
  | removeStalePlanLock => exact hremoved (by decide) _
  | removeStaleEvaluation => exact hremoved (by decide) _

/-- The run has failed with the violation of an unsafe path. -/
def RefusesPath (r : Except Failure Path) : Prop := ∃ failure, r = .error failure ∧ Refusal failure

/-- The run has worked on the file of this repository. -/
structure Operates (resolved_root : Path) (filename : Str) (disk disk' : Disk)
    (r : Except Failure Path) : Prop where
  build : disk' (resolved_root.child "build") = some .directory
  harness : disk' (evidenceDirectory resolved_root) = some .directory
  /-- Everything above the file is a real directory, and the file is absent or regular. -/
  stands : Stands (evidenceDirectory resolved_root) filename disk'
  touches : Touches resolved_root filename disk disk'
  path : ∀ path, r = .ok path → path = (evidenceDirectory resolved_root).child filename

omit [ByteRuntime] in
/-- Above a file that can be used there are real directories. -/
theorem Stands.operates {r : Except Failure Path}
    (h : Stands (evidenceDirectory resolved_root) name disk')
    (htouches : Touches resolved_root name disk disk')
    (hpath : ∀ path, r = .ok path → path = (evidenceDirectory resolved_root).child name) :
    Operates resolved_root name disk disk' r where
  build := h.reached.through _ ((isRelativeTo_child _ "harness").child name)
    (ne_child (isRelativeTo_child _ "harness"))
  harness := h.reached.real_above
  stands := h
  touches := htouches
  path := hpath

/-- **Evidence stays inside.** In a tree of files that nobody else changes, whatever stands where
the evidence belongs: locating or removing an evidence file, with or without a write of it, fails
with the violation of an unsafe path or works on the file of the repository below real directories;
in both cases nothing outside of `build` has changed. -/
theorem evidence_confined (access : Access) (payload : Option Json) {root : Path} {steps : Trace}
    {r : Except Failure Path} (hreplay : (useEvidence access payload root).replay steps = some r)
    (hleads : Script.Leads Acts steps disk disk') :
    RefusesPath r ∧ disk' = disk ∨
      ∃ resolved_root, (strictRepositoryRoot root).RanIn steps resolved_root ∧
        Confined resolved_root disk disk' ∧
        (RefusesPath r ∨ Operates resolved_root access.filename disk disk' r) := by
  rw [useEvidence, access.script_eq, Script.bind_assoc] at hreplay
  obtain ⟨failure, rfl, hroot⟩ | ⟨resolved_root, first, rest, rfl, hroot, hrest⟩ :=
    Script.replay_bind.mp hreplay
  · obtain ⟨hsame, hrefusal⟩ := (strictRepositoryRoot_reached root).replay hleads hroot
    exact .inl ⟨⟨failure, rfl, hrefusal⟩, hsame⟩
  obtain ⟨between, hfirst, hbehind⟩ := Script.leads_append.mp hleads
  obtain ⟨rfl, hreached, hreal⟩ := (strictRepositoryRoot_reached root).replay hfirst hroot
  have hname : access.filename ∈ evidenceNames := by
    cases access <;> decide
  have hused : (access.located resolved_root >>= writeGiven payload).Ensures Acts
      (fun disk' r => Touches resolved_root access.filename between disk' ∧
        (RefusesPath r ∨ Operates resolved_root access.filename between disk' r)) between := by
    refine (access.located_located hreached hreal).bind
      (fun _ e hr => ⟨hr.1, .inl ⟨e, rfl, hr.2⟩⟩) fun disk₁ path hr => ?_
    obtain ⟨htouched, rfl, hstands⟩ := hr
    cases payload with
    | none =>
      exact ⟨htouched, .inr (hstands.operates htouched fun path h => (Except.ok.inj h).symm)⟩
    | some payload =>
      refine Script.keeps_bind.mpr (Script.keeps_tryCatch.mpr ?_)
      refine (writeJsonAtomic_filed hname payload hstands).mono fun disk₂ r hfiled => ?_
      have htouched := htouched.trans hfiled.touches
      cases r with
      | ok _ =>
        exact ⟨htouched, .inr (hfiled.stands.operates htouched fun path h =>
          (Except.ok.inj h).symm)⟩
      | error error => exact ⟨htouched, .inr (hfiled.stands.operates htouched nofun)⟩
  obtain ⟨htouched, hends⟩ := hused.replay hbehind hrest
  exact .inr ⟨resolved_root, (Script.ranIn_of_replay hroot).append_right rest, htouched.confined,
    hends⟩

end Uses

namespace Sample

/-- The repository below the root of the file system. -/
def tree : Disk := repository.set ⟨"/", []⟩ (some .directory)

/-- The root of the repository is reached. -/
theorem tree_reached : Reached tree root where
  absolute := by decide
  plain := by decide
  through ancestor hancestor hne := by
    have habove : IsRelativeTo (⟨"/", []⟩ : Python.Path) ancestor := above_child hancestor hne
    obtain ⟨hroot, hparts⟩ := habove
    obtain rfl : ancestor = ⟨"/", []⟩ := congrArg₂ Python.Path.mk hroot (List.prefix_nil.mp hparts)
    rfl

/-- The steps that find the path of a lock which is not there. -/
def locating : Trace :=
  [⟨.resolve root true, .ok root⟩, ⟨.lstat root, .ok .directory⟩,
    ⟨.lstat (root.child "build"), .ok .directory⟩,
    ⟨.resolve (root.child "build") true, .ok (root.child "build")⟩,
    ⟨.lstat (evidenceDirectory root), .ok .directory⟩,
    ⟨.resolve (evidenceDirectory root) true, .ok (evidenceDirectory root)⟩,
    ⟨.lstat ((evidenceDirectory root).child lockName), .error ⟨.FileNotFoundError, []⟩⟩]

/-- They change nothing. -/
theorem locating_leads : Script.Leads Acts locating tree tree := by
  have hlstat {path : Python.Path} (hreal : tree path = some .directory) :
      Acts (.lstat path) (.ok .directory) tree tree :=
    ⟨trivial, trivial, fun _ _ => rfl, fun _ => ⟨rfl, .directory, hreal, rfl⟩⟩
  have hresolve {path : Python.Path} (hreached : Reached tree path) :
      Acts (.resolve path true) (.ok path) tree tree :=
    ⟨trivial, ⟨hreached, fun _ _ => rfl⟩, nofun, fun _ => rfl⟩
  have hbuild : Reached tree (root.child "build") := tree_reached.child rfl (by decide)
  have hharness : Reached tree (evidenceDirectory root) := hbuild.child rfl (by decide)
  exact ⟨_, hresolve tree_reached, _, hlstat rfl, _, hlstat rfl, _, hresolve hbuild, _, hlstat rfl,
    _, hresolve hharness, _, ⟨rfl, trivial, fun _ _ => rfl, fun _ => ⟨rfl, fun _ => rfl⟩⟩, rfl⟩

end Sample

/-- The path of a lock is found, and nothing changes. -/
theorem evidence_confined_lock : ∃ resolved_root,
    (strictRepositoryRoot Sample.root).RanIn Sample.locating resolved_root ∧
      Confined resolved_root Sample.tree Sample.tree := by
  let _ := Sample.runtime
  have hreplay : (useEvidence .safeEvidenceLockPath none Sample.root).replay Sample.locating =
      some (.ok ((evidenceDirectory Sample.root).child lockName)) := by rfl
  obtain ⟨⟨_, hrefused, -⟩, -⟩ | ⟨resolved_root, hroot, hconfined, -⟩ :=
    evidence_confined .safeEvidenceLockPath none hreplay Sample.locating_leads
  · cases hrefused
  · exact ⟨resolved_root, hroot, hconfined⟩

end CoffeeOrder.Harness
