import CoffeeOrder.Harness.Disk
import CoffeeOrder.Kit.Interruption

/-!
# The repository among others

Git, the check runner and other processes work on the same disk. They may delete the evidence
files, but do not write them; a root that has been resolved stays resolved, and a file that is read
has its content. What the harness does to the evidence files is stated relative to that.
-/

namespace CoffeeOrder.Harness

open Kit Python

section World

/-- The root of the repository is resolved to the same path again and again. -/
def Settles (root resolved_root : Path) : (op : Op) → op.Answer → Prop
  | .resolve path _, .ok found => path = root ∨ path = resolved_root → found = resolved_root
  | _, _ => True

/-- A file that is read is there, and the answer is its content. -/
def Observes (disk : Disk) : (op : Op) → op.Answer → Prop
  | .readBytes path, .ok raw =>
    disk path ≠ none ∧ ∀ content, disk path = some (.file content) → raw = content
  | _, _ => True

/-- More may be done by the others. -/
theorem Effect.mono {foreign foreign' : Disk → Disk → Prop} {op : Op} {answer : op.Answer}
    {disk disk' : Disk} (h : ∀ disk disk', foreign disk disk' → foreign' disk disk')
    (hE : Effect foreign op answer disk disk') : Effect foreign' op answer disk disk' := by
  cases op with
  | run command cwd dont_write_bytecode => exact h _ _ hE
  | checkRunner root check_ids => exact h _ _ hE
  | preflight root => exact h _ _ hE
  | _ => exact hE

/-- The file is as it was, or it is gone. -/
def Spared (path : Path) (disk disk' : Disk) : Prop := disk' path = disk path ∨ disk' path = none

/-- A file that is spared twice is spared. -/
theorem Spared.trans {path : Path} {disk disk' disk'' : Disk} (h : Spared path disk disk')
    (h' : Spared path disk' disk'') : Spared path disk disk'' := by
  obtain hsame | hgone := h'
  · exact h.imp hsame.trans hsame.trans
  · exact .inr hgone

/-- A file that was not there is not there. -/
theorem Spared.absent {path : Path} {disk disk' : Disk} (h : Spared path disk disk')
    (hnone : disk path = none) : disk' path = none :=
  h.elim (fun hsame => hsame.trans hnone) id

/-- Nobody but the harness writes the file. -/
def Unwritten (foreign : Disk → Disk → Prop) (path : Path) : Prop :=
  ∀ disk disk', foreign disk disk' → Spared path disk disk'

/-- No evidence file has been written. -/
def Intact (resolved_root : Path) (disk disk' : Disk) : Prop :=
  ∀ name ∈ evidenceNames, Spared ((evidenceDirectory resolved_root).child name) disk disk'

/-- What has not changed is intact. -/
theorem Intact.refl (resolved_root : Path) (disk : Disk) : Intact resolved_root disk disk :=
  fun _ _ => .inl rfl

/-- Evidence that stays intact twice stays intact. -/
theorem Intact.trans {resolved_root : Path} {disk disk' disk'' : Disk}
    (h : Intact resolved_root disk disk') (h' : Intact resolved_root disk' disk'') :
    Intact resolved_root disk disk'' := fun name hname => (h name hname).trans (h' name hname)

/-- A repository, and what others may do to the disk: they do not write evidence files. -/
structure World where
  root : Path
  resolved_root : Path
  foreign : Disk → Disk → Prop
  spares : ∀ disk disk', foreign disk disk' → Intact resolved_root disk disk'

/-- What the file system and the others answer and do. The others act while a command, the check
runner or the preflight runs, and between two runs; at every other step the disk is changed by
nothing but the operation. -/
structure World.Happens (w : World) (op : Op) (answer : op.Answer) (disk disk' : Disk) : Prop where
  settles : Settles w.root w.resolved_root op answer
  observes : Observes disk op answer
  effect : Effect w.foreign op answer disk disk'

/-- The operation writes no file. -/
def Op.Gentle : Op → Prop
  | .unlink _ _ | .checkRunner _ _ | .preflight _ => True
  | op => op.Quiet

/-- Quiet operations write no file. -/
theorem Op.Quiet.gentle {op : Op} (h : op.Quiet) : op.Gentle := by
  cases op with
  | unlink path missing_ok => trivial
  | checkRunner root check_ids => trivial
  | preflight root => trivial
  | _ => exact h

/-- Removing writes no file. -/
theorem Op.Removing.gentle {op : Op} (h : op.Removing) : op.Gentle := by
  obtain hquiet | ⟨path, rfl⟩ := h
  · exact hquiet.gentle
  · trivial

variable {w : World} {disk disk' disk'' : Disk}

/-- Such an operation leaves an evidence file as it is, or deletes it. -/
theorem gentle_spares {foreign : Disk → Disk → Prop} {directory : Path} {name : Str}
    (hname : name ∈ evidenceNames) (hforeign : Unwritten foreign (directory.child name)) {op : Op}
    {answer : op.Answer} (hop : op.Gentle) (hE : Effect foreign op answer disk disk') :
    Spared (directory.child name) disk disk' := by
  obtain ⟨hbuild, hharness, -⟩ := evidenceNames_distinct hname
  cases op with
  | mkdir path =>
    cases answer with
    | error error => exact .inl (congrFun hE _)
    | ok _ =>
      obtain ⟨-, rfl⟩ := hE
      refine .inl (Disk.set_of_ne (fun heq => ?_) _)
      obtain ⟨parent, rfl | rfl⟩ := hop
      · exact hbuild (Path.child_inj.mp heq).2
      · exact hharness (Path.child_inj.mp heq).2
  | unlink path missing_ok =>
    cases answer with
    | error error => exact .inl (congrFun hE _)
    | ok _ =>
      obtain rfl : disk' = _ := hE
      by_cases heq : directory.child name = path
      · exact .inr (heq ▸ Disk.set_self ..)
      · exact .inl (Disk.set_of_ne heq _)
  | lstat path => exact .inl (congrFun hE.1 _)
  | run command cwd dont_write_bytecode => exact hforeign _ _ hE
  | checkRunner root check_ids => exact hforeign _ _ hE
  | preflight root => exact hforeign _ _ hE
  | resolve path strict => exact .inl (congrFun hE _)
  | readlink path => exact .inl (congrFun hE _)
  | readBytes path => exact .inl (congrFun hE _)
  | _ => exact absurd hop id

/-- So it leaves both of them intact. -/
theorem gentle_intact {op : Op} {answer : op.Answer} (hop : op.Gentle)
    (hE : Effect w.foreign op answer disk disk') : Intact w.resolved_root disk disk' :=
  fun name hname =>
    gentle_spares hname (fun _ _ hforeign => w.spares _ _ hforeign name hname) hop hE

/-- A property of the evidence files alone. -/
def LooksAtEvidence (resolved_root : Path) (I : Disk → Prop) : Prop :=
  ∀ disk disk', (∀ name ∈ evidenceNames, disk' ((evidenceDirectory resolved_root).child name) =
    disk ((evidenceDirectory resolved_root).child name)) → I disk → I disk'

/-- Whether the evidence is intact depends on the evidence only. -/
theorem intact_looks (disk : Disk) :
    LooksAtEvidence w.resolved_root (Intact w.resolved_root disk) := by
  intro disk' disk'' hsame hintact name hname
  rw [Spared, hsame name hname]
  exact hintact name hname

/-- A temporary file is no evidence file. -/
theorem LooksAtEvidence.set_temporary {I : Disk → Prop} (hI : LooksAtEvidence w.resolved_root I)
    {directory temporary_path : Path} (htemporary : IsTemporary directory temporary_path)
    (entry : Option Entry) (hdisk : I disk) : I (disk.set temporary_path entry) := by
  obtain ⟨suffix, rfl⟩ := htemporary
  refine hI _ _ (fun name hname => Disk.set_of_ne (fun heq => ?_) _) hdisk
  exact (evidenceNames_distinct hname).2.2 suffix (Path.child_inj.mp heq).2

end World

section Writes

variable {w : World} {disk : Disk}

/-- The operation is one on the open file. -/
def OnFile (path : Path) : Op → Prop
  | .write path' _ | .flush path' | .fsync path' | .close path' => path' = path
  | _ => False

/-- Writing a temporary file touches no other file. -/
theorem writeTemporary_onFile (temporary_path : Path) (content : Bytes) :
    (writeTemporary temporary_path content).Within (OnFile temporary_path) fun _ => True := by
  refine .bind (.tryCatch ?_ fun e (_ : True) => ?_) fun _ => ?_
  · refine perform_bind_within (by rfl) ?_
    refine perform_bind_within (by rfl) ?_
    exact perform_within (by rfl)
  · exact cleanUp_within (by rfl) e
  · exact perform_within (by rfl)

/-- What is done to an open temporary file is not done to evidence. -/
theorem LooksAtEvidence.onFile {I : Disk → Prop} (hI : LooksAtEvidence w.resolved_root I)
    {directory temporary_path : Path} (htemporary : IsTemporary directory temporary_path) {op : Op}
    {answer : op.Answer} {disk' : Disk} (hop : OnFile temporary_path op)
    (hE : Effect foreign op answer disk disk') (hdisk : I disk) : I disk' := by
  have htorn {disk' : Disk} (h : Torn temporary_path disk disk') : I disk' := by
    obtain ⟨content, rfl⟩ := h
    exact hI.set_temporary htemporary _ hdisk
  have hkept {answer : Except Exc Unit} {disk' : Disk} (h : Kept temporary_path answer disk disk') :
      I disk' := by
    cases answer with
    | ok _ =>
      obtain rfl : disk' = disk := h
      exact hdisk
    | error error => exact htorn h
  cases op with
  | write path content =>
    obtain rfl : path = temporary_path := hop
    cases answer with
    | ok _ =>
      obtain ⟨old, -, rfl⟩ := hE
      exact hI.set_temporary htemporary _ hdisk
    | error error => exact htorn hE
  | flush path =>
    obtain rfl : path = temporary_path := hop
    exact hkept hE
  | fsync path =>
    obtain rfl : path = temporary_path := hop
    exact hkept hE
  | close path =>
    obtain rfl : path = temporary_path := hop
    exact hkept hE
  | _ => exact absurd hop id

/-- An evidence file is never half written: until the end of a write, the evidence is as it was
before. -/
theorem writeJsonAtomic_keeps {I : Disk → Prop} (hI : LooksAtEvidence w.resolved_root I)
    (path : Path) (payload : Json) (hdisk : I disk) :
    (writeJsonAtomic path payload).Keeps (w.Happens) I
      (Replaced (w.Happens) path payload disk) disk := by
  have hstays : (writeJsonAtomic path payload).Keeps (w.Happens) I
      (fun _ _ => True) disk := by
    refine Script.keeps_bind.mpr (Script.keeps_ofExcept.mpr ?_)
    cases jsonBytes payload with
    | error error => trivial
    | ok content =>
      refine ⟨hdisk, fun created disk' hcreate => ?_⟩
      cases created with
      | error error => trivial
      | ok temporary_path =>
        obtain ⟨htemporary, -, rfl⟩ := hcreate.effect
        have hopened := hI.set_temporary htemporary (some (.file [])) hdisk
        -- what the cleanup removes is the temporary file
        have hcleanup {disk' : Disk} (error : Exc) (hdisk' : I disk') :
            (do liftM (← ask (.unlink temporary_path true)); throw error :
              Script Exc Op.Answer Unit).Keeps (w.Happens) I
              (fun _ _ => True) disk' := by
          refine ⟨hdisk', fun removed disk'' _ => ?_⟩
          cases removed with
          | ok _ => trivial
          | error error => trivial
        refine Script.keeps_tryCatch.mpr (Script.keeps_bind.mpr ?_)
        have hfilled : (writeTemporary temporary_path content).Keeps
            (w.Happens) I (fun disk' r => I disk' ∧ ErrorsIn _ r) _ :=
          (writeTemporary_onFile temporary_path content).keeps
            (fun _ _ _ _ hop hE => hI.onFile htemporary hop hE.effect) hopened
        refine hfilled.mono fun disk' r hr => ?_
        cases r with
        | error error => exact hcleanup error hr.1
        | ok _ =>
          refine ⟨hr.1, fun replaced disk'' hreplace => ?_⟩
          cases replaced with
          | ok _ => trivial
          | error error =>
            obtain rfl : disk'' = disk' := hreplace.effect
            exact hcleanup error hr.1
  have hends := writeJsonAtomic_ensures (E := w.Happens)
    (fun _ _ _ _ hE => hE.effect) path payload disk
  exact (hstays.and_ensures hends).mono fun _ _ h => h.2

/-- A write that raises has left the evidence as it was. -/
theorem LooksAtEvidence.replaced {I : Disk → Prop} (hI : LooksAtEvidence w.resolved_root I)
    {E : (op : Op) → op.Answer → Disk → Disk → Prop} {disk' : Disk} {path : Path} {payload : Json}
    {error : Exc} (h : Replaced E path payload disk disk' (.error error)) (hdisk : I disk) :
    I disk' :=
  hI _ _ (fun _ hname => h.keeps hname) hdisk

end Writes

section Locating

variable {w : World} {disk : Disk}

/-- Both spellings of the root lead to the same directory. -/
theorem strictRepositoryRoot_settles {path : Path} (h : path = w.root ∨ path = w.resolved_root) :
    (strictRepositoryRoot path).Meets (Settles w.root w.resolved_root) (fun _ => True)
      (· = w.resolved_root) := by
  have hlooked : (do
      let found ← (← ask (.resolve path true))
      let root_status ← (← ask (.lstat found))
      return (found, root_status) : Script Exc Op.Answer (Path × FileKind)).Meets
      (Settles w.root w.resolved_root) (fun _ => True) fun found => found.1 = w.resolved_root := by
    refine meets_ask fun answer hanswer => ?_
    cases answer with
    | error error => trivial
    | ok found =>
      obtain rfl : found = w.resolved_root := hanswer h
      refine meets_ask fun status _ => ?_
      cases status with
      | error error => trivial
      | ok root_status => rfl
  refine (hlooked.mapError fun _ _ => trivial).bind fun found hfound => ?_
  exact .ite trivial hfound

variable [Runtime]

/-- Both spellings of the root lead to the same evidence path. -/
theorem safeEvidencePath_settles {path : Path} (filename : Str)
    (h : path = w.root ∨ path = w.resolved_root) :
    (safeEvidencePath path filename).Meets (Settles w.root w.resolved_root) (fun _ => True)
      (· = (evidenceDirectory w.resolved_root).child filename) := by
  refine (strictRepositoryRoot_settles h).bind ?_
  rintro _ rfl
  refine (Script.Meets.anything _).bind fun _ _ => (Script.Meets.anything _).bind fun _ _ => ?_
  refine meets_ask fun status _ => ?_
  cases status with
  | error error => exact .ite rfl trivial
  | ok target_status => exact .ite trivial (.ite trivial rfl)

/-- The path of an evidence file is accepted only if nothing else stands there. -/
theorem safeEvidencePath_ensures {path : Path} (filename : Str)
    (h : path = w.root ∨ path = w.resolved_root) :
    (safeEvidencePath path filename).Ensures (w.Happens)
      (Script.returning fun disk found =>
        found = (evidenceDirectory w.resolved_root).child filename ∧
          (disk found = none ∨ ∃ content, disk found = some (.file content))) disk := by
  have hroot := (strictRepositoryRoot_settles h).ensures (E := w.Happens)
    (s := disk) fun _ _ _ _ hE => hE.settles
  refine hroot.bind_returning ?_
  rintro disk _ rfl
  refine Script.ensures_anything.bind_returning fun disk _ _ => ?_
  refine Script.ensures_anything.bind_returning fun disk _ _ => ?_
  refine Script.ensures_ask fun status disk' hE => ?_
  obtain ⟨rfl, hstatus⟩ := hE.effect
  cases status with
  | error error =>
    refine Script.keeps_ite (fun hmissing => ?_) fun _ => Script.returning_error
    exact Script.returning_ok.mpr ⟨rfl, .inl (hstatus hmissing)⟩
  | ok target_status =>
    refine Script.keeps_ite (fun _ => Script.returning_error) fun _ => ?_
    refine Script.keeps_ite (fun _ => Script.returning_error) fun hregular => ?_
    obtain ⟨entry, hentry, hkind⟩ := hstatus
    obtain rfl := not_not.mp hregular
    cases entry with
    | file content => exact Script.returning_ok.mpr ⟨rfl, .inr ⟨content, hentry⟩⟩
    | _ => cases hkind

end Locating

end CoffeeOrder.Harness
