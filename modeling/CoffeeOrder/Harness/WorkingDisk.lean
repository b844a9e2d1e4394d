import CoffeeOrder.Harness.LockWrites

/-!
# Evidence on a working disk

The repository, Git and the check runner answer by a fixed function, and the file system does what
it is asked to. Then the parts of `evaluate` that deal with evidence succeed, and the other parts
have the result that they had before.
-/

namespace CoffeeOrder.Harness

open Kit Python

section Surroundings

/-- The directories and the files of the evidence. -/
def evidencePaths (resolved_root : Path) : List Path :=
  [resolved_root.child "build", evidenceDirectory resolved_root, lockPath resolved_root,
    evaluationPath resolved_root]

/-- The operation asks the repository, Git or the check runner, and not for evidence. -/
def Op.Outside (resolved_root : Path) : Op → Prop
  | .lstat path | .readBytes path => path ∉ evidencePaths resolved_root
  | .resolve _ _ | .readlink _ | .run _ _ _ | .checkRunner _ _ => True
  | _ => False

/-- Nothing at the evidence paths keeps evidence from being written. -/
structure Usable (resolved_root : Path) (disk : Disk) : Prop where
  build : disk (resolved_root.child "build") = none ∨
    disk (resolved_root.child "build") = some .directory
  harness : disk (evidenceDirectory resolved_root) = none ∨
    disk (evidenceDirectory resolved_root) = some .directory
  lock : disk (lockPath resolved_root) = none ∨
    ∃ content, disk (lockPath resolved_root) = some (.file content)
  evaluation : disk (evaluationPath resolved_root) = none ∨
    ∃ content, disk (evaluationPath resolved_root) = some (.file content)

/-- The evidence is as it was. -/
def SameEvidence (resolved_root : Path) (disk disk' : Disk) : Prop :=
  ∀ path ∈ evidencePaths resolved_root, disk' path = disk path

/-- The file system does what it is asked to, as far as the disk admits. -/
def Works (resolved_root : Path) (disk : Disk) : (op : Op) → op.Answer → Prop
  | .lstat path, answer => path ∈ evidencePaths resolved_root → match disk path with
    | some entry => answer = .ok entry.kind
    | none => ∃ error : Exc, answer = .error error ∧ error.type = .FileNotFoundError
  | .readBytes path, answer => path ∈ evidencePaths resolved_root →
    ∀ content, disk path = some (.file content) → answer = .ok content
  | .mkdir path, answer => disk path = none →
    path.parent = resolved_root ∨ disk path.parent = some .directory → answer = .ok ()
  | .unlink path _, answer => ∀ content, disk path = some (.file content) → answer = .ok ()
  | .createTemporary directory, answer =>
    disk directory = some .directory → ∃ temporary_path, answer = .ok temporary_path
  | .write path _, answer | .flush path, answer | .fsync path, answer | .close path, answer =>
    ∀ content, disk path = some (.file content) → answer = .ok ()
  | .replace path target, answer => ∀ content, disk path = some (.file content) →
    disk target ≠ some .directory → answer = .ok ()
  | _, _ => True

/-- Git leaves the evidence alone, and the check runner leaves it usable. -/
def SparesEvidence (resolved_root : Path) (disk disk' : Disk) : Op → Prop
  | .run _ _ _ => SameEvidence resolved_root disk disk'
  | .checkRunner _ _ => Usable resolved_root disk → Usable resolved_root disk'
  | _ => True

/-- The repository answers what is asked outside of the evidence, and the file system works. -/
structure Serves (repository : (op : Op) → op.Answer) (resolved_root : Path) (op : Op)
    (answer : op.Answer) (disk disk' : Disk) : Prop where
  effect : Effect (fun _ _ => True) op answer disk disk'
  repeats : op.Outside resolved_root → answer = repository op
  works : Works resolved_root disk op answer
  spares : SparesEvidence resolved_root disk disk' op

variable {repository : (op : Op) → op.Answer} {resolved_root : Path} {disk disk' : Disk}

/-- Evidence that is the same is as usable. -/
theorem SameEvidence.usable (h : SameEvidence resolved_root disk disk')
    (husable : Usable resolved_root disk) : Usable resolved_root disk' where
  build := by
    rw [h (resolved_root.child "build") (by simp [evidencePaths])]
    exact husable.build
  harness := by
    rw [h (evidenceDirectory resolved_root) (by simp [evidencePaths])]
    exact husable.harness
  lock := by
    rw [h (lockPath resolved_root) (by simp [evidencePaths])]
    exact husable.lock
  evaluation := by
    rw [h (evaluationPath resolved_root) (by simp [evidencePaths])]
    exact husable.evaluation

/-- What is asked outside of the evidence leaves the evidence, but for the check runner. -/
theorem Serves.same {op : Op} {answer : op.Answer} (houtside : op.Outside resolved_root)
    (hcalls : ¬op.CallsRunner) (h : Serves repository resolved_root op answer disk disk') :
    SameEvidence resolved_root disk disk' := by
  have hsame (heq : disk' = disk) : SameEvidence resolved_root disk disk' :=
    fun path _ => congrFun heq path
  cases op with
  | lstat path => exact hsame h.effect.1
  | readBytes path => exact hsame h.effect
  | resolve path strict => exact hsame h.effect
  | readlink path => exact hsame h.effect
  | run command cwd dont_write_bytecode => exact h.spares
  | checkRunner root check_ids => exact absurd trivial hcalls
  | _ => exact absurd houtside id

/-- All of it leaves the evidence usable. -/
theorem Serves.usable {op : Op} {answer : op.Answer} (houtside : op.Outside resolved_root)
    (h : Serves repository resolved_root op answer disk disk')
    (husable : Usable resolved_root disk) : Usable resolved_root disk' := by
  cases op with
  | checkRunner root check_ids => exact h.spares husable
  | _ => exact (h.same houtside id).usable husable

end Surroundings

section Again

variable {repository : (op : Op) → op.Answer} {resolved_root : Path} {disk : Disk} {ε α : Type}

/-- The repository has answered the steps, all of them outside of the evidence. -/
def AnsweredBy (repository : (op : Op) → op.Answer) (resolved_root : Path) (steps : Trace) :
    Prop :=
  ∀ step ∈ steps, step.op.Outside resolved_root ∧ step.answer = repository step.op

/-- What the repository has answered comes out again, and the evidence stays usable. -/
theorem again_usable {p : Script ε Op.Answer α} {steps : Trace} {r : Except ε α}
    (hreplay : p.replay steps = some r) (hanswered : AnsweredBy repository resolved_root steps)
    (husable : Usable resolved_root disk) :
    p.Ensures (Serves repository resolved_root)
      (fun disk' r' => Usable resolved_root disk' ∧ r' = r) disk := by
  refine Script.ensures_again hreplay (fun step hstep answer disk' disk'' hE husable => ?_) husable
  obtain ⟨houtside, hanswer⟩ := hanswered step hstep
  exact ⟨(hE.repeats houtside).trans hanswer.symm, hE.usable houtside husable⟩

/-- Without a call of the check runner the evidence stays the same. -/
theorem again_same {p : Script ε Op.Answer α} {steps : Trace} {r : Except ε α}
    (hreplay : p.replay steps = some r) (hanswered : AnsweredBy repository resolved_root steps)
    (hcalls : ∀ step ∈ steps, ¬step.op.CallsRunner) :
    p.Ensures (Serves repository resolved_root)
      (fun disk' r' => SameEvidence resolved_root disk disk' ∧ r' = r) disk := by
  refine Script.ensures_again hreplay (fun step hstep answer disk' disk'' hE hsame => ?_)
    fun _ _ => rfl
  obtain ⟨houtside, hanswer⟩ := hanswered step hstep
  have hstays := hE.same houtside (hcalls step hstep)
  exact ⟨(hE.repeats houtside).trans hanswer.symm,
    fun path hpath => (hstays path hpath).trans (hsame path hpath)⟩

/-- What follows a part with one result goes on from what that part leaves. -/
theorem returns_bind {E : (op : Op) → op.Answer → Disk → Disk → Prop} {β : Type} {P : Disk → Prop}
    {a : α} {p : Script ε Op.Answer α} {f : α → Script ε Op.Answer β}
    {Q : Disk → Except ε β → Prop} (hp : p.Ensures E (fun found r => P found ∧ r = .ok a) disk)
    (hf : ∀ found, P found → (f a).Ensures E Q found) : (p >>= f).Ensures E Q disk := by
  refine hp.bind (fun found error hr => ?_) fun found b hr => ?_
  · cases hr.2
  · obtain ⟨hfound, hb⟩ := hr
    obtain rfl := Except.ok.inj hb
    exact hf found hfound

/-- The same for a part with one outcome. -/
theorem exactly_bind {E : (op : Op) → op.Answer → Disk → Disk → Prop} {β : Type} {disk' : Disk}
    {a : α} {p : Script ε Op.Answer α} {f : α → Script ε Op.Answer β}
    {Q : Disk → Except ε β → Prop}
    (hp : p.Ensures E (fun found r => found = disk' ∧ r = .ok a) disk)
    (hf : (f a).Ensures E Q disk') : (p >>= f).Ensures E Q disk := by
  refine returns_bind hp ?_
  rintro _ rfl
  exact hf

end Again

section Evidence

variable [ByteRuntime] {repository : (op : Op) → op.Answer} {root resolved_root : Path}
  {disk : Disk}

/-- Where the repository is, as it answers. -/
structure Placed (repository : (op : Op) → op.Answer) (root resolved_root : Path) : Prop where
  root_resolves : repository (.resolve root true) = .ok resolved_root
  again_resolves : repository (.resolve resolved_root true) = .ok resolved_root
  directory : repository (.lstat resolved_root) = .ok .directory
  build_inside : ∃ found inside, repository (.resolve (resolved_root.child "build") true) =
    .ok found ∧ found.relativeTo resolved_root = .ok inside
  harness_inside : ∃ found inside, repository (.resolve (evidenceDirectory resolved_root) true) =
    .ok found ∧ found.relativeTo resolved_root = .ok inside

omit [ByteRuntime] in
/-- The root is no evidence. -/
theorem root_outside (resolved_root : Path) : resolved_root ∉ evidencePaths resolved_root := by
  intro hmem
  have hlength : ∀ path ∈ evidencePaths resolved_root,
      resolved_root.parts.length < path.parts.length := by
    simp [evidencePaths, lockPath, evaluationPath, evidenceDirectory, Path.child]
  exact absurd (hlength _ hmem) (lt_irrefl _)

/-- The root is found again. -/
theorem strictRepositoryRoot_again {path : Path} (h : Placed repository root resolved_root)
    (hpath : path = root ∨ path = resolved_root) :
    (strictRepositoryRoot path).Ensures (Serves repository resolved_root)
      (fun disk' r => disk' = disk ∧ r = .ok resolved_root) disk := by
  have hresolves : repository (.resolve path true) = .ok resolved_root := by
    obtain rfl | rfl := hpath
    · exact h.root_resolves
    · exact h.again_resolves
  refine Script.keeps_bind.mpr (Script.keeps_tryCatch.mpr ⟨trivial, fun found d hE => ?_⟩)
  obtain rfl : found = .ok resolved_root := (hE.repeats trivial).trans hresolves
  obtain rfl : d = disk := hE.effect
  refine ⟨trivial, fun status d hE => ?_⟩
  obtain rfl : status = .ok .directory :=
    (hE.repeats (root_outside resolved_root)).trans h.directory
  obtain ⟨rfl, -⟩ := hE.effect
  exact ⟨rfl, rfl⟩

omit [ByteRuntime] in
/-- A directory of the evidence is there, or is created. -/
theorem evidenceDirectoryStatus_again {directory : Path}
    (hmem : directory ∈ evidencePaths resolved_root)
    (hparent : directory.parent = resolved_root ∨ disk directory.parent = some .directory)
    (husable : disk directory = none ∨ disk directory = some .directory) :
    (evidenceDirectoryStatus directory).Ensures (Serves repository resolved_root)
      (fun disk' r => disk' = disk.set directory (some .directory) ∧ r = .ok .directory) disk := by
  refine Script.ensures_ask fun status d hE => ?_
  obtain ⟨rfl, -⟩ := hE.effect
  have hstatus := hE.works hmem
  obtain hnone | hdirectory := husable
  · rw [hnone] at hstatus
    obtain ⟨error, rfl, hmissing⟩ := hstatus
    refine Script.keeps_ite (fun _ => ?_) fun hother => absurd hmissing hother
    refine Script.ensures_ask fun created d' hE => ?_
    obtain rfl : created = .ok () := hE.works hnone hparent
    obtain ⟨-, rfl⟩ := hE.effect
    refine Script.ensures_ask fun status d' hE => ?_
    obtain ⟨rfl, -⟩ := hE.effect
    have hstatus := hE.works hmem
    rw [Disk.set_self] at hstatus
    obtain rfl : status = .ok .directory := hstatus
    exact ⟨rfl, rfl⟩
  · rw [hdirectory] at hstatus
    obtain rfl : status = .ok .directory := hstatus
    exact ⟨by rw [← hdirectory]; exact (Function.update_eq_self _ _).symm, rfl⟩

/-- A directory of the evidence is accepted again. -/
theorem ensureSafeEvidenceDirectory_again {directory : Path}
    (hmem : directory ∈ evidencePaths resolved_root)
    (hparent : directory.parent = resolved_root ∨ disk directory.parent = some .directory)
    (husable : disk directory = none ∨ disk directory = some .directory)
    (hinside : ∃ found inside, repository (.resolve directory true) = .ok found ∧
      found.relativeTo resolved_root = .ok inside) :
    (ensureSafeEvidenceDirectory resolved_root directory).Ensures (Serves repository resolved_root)
      (fun disk' r => disk' = disk.set directory (some .directory) ∧ r = .ok ()) disk := by
  obtain ⟨found, inside, hresolves, hrelative⟩ := hinside
  refine exactly_bind (evidenceDirectoryStatus_again hmem hparent husable) ?_
  refine Script.keeps_tryCatch.mpr ⟨trivial, fun answer d hE => ?_⟩
  obtain rfl : answer = .ok found := (hE.repeats trivial).trans hresolves
  obtain rfl := hE.effect
  show (Script.ofExcept (found.relativeTo resolved_root) >>= _).Keeps _ _ _ _
  rw [hrelative]
  exact ⟨rfl, rfl⟩

/-- The disk with the directories of the evidence. -/
def furnished (resolved_root : Path) (disk : Disk) : Disk :=
  (disk.set (resolved_root.child "build") (some .directory)).set (evidenceDirectory resolved_root)
    (some .directory)

omit [ByteRuntime] in
/-- Nothing else changes. -/
theorem furnished_of_ne {path : Path} (hbuild : path ≠ resolved_root.child "build")
    (hharness : path ≠ evidenceDirectory resolved_root) :
    furnished resolved_root disk path = disk path :=
  (Disk.set_of_ne hharness _).trans (Disk.set_of_ne hbuild _)

omit [ByteRuntime] in
/-- The files of the evidence stay as they are. -/
theorem furnished_file {name : Str} (hname : name ∈ evidenceNames) :
    furnished resolved_root disk ((evidenceDirectory resolved_root).child name) =
      disk ((evidenceDirectory resolved_root).child name) := by
  obtain ⟨hbuild, hharness, -⟩ := evidenceNames_distinct hname
  exact furnished_of_ne (fun heq => hbuild (Path.child_inj.mp heq).2)
    fun heq => hharness (Path.child_inj.mp heq).2

omit [ByteRuntime] in
/-- The outer directory is there. -/
theorem furnished_build :
    furnished resolved_root disk (resolved_root.child "build") = some .directory := by
  refine (Disk.set_of_ne (fun heq => ?_) _).trans (Disk.set_self ..)
  exact absurd (Path.child_inj.mp heq).2 (by decide)

omit [ByteRuntime] in
/-- So is the inner one. -/
theorem furnished_harness :
    furnished resolved_root disk (evidenceDirectory resolved_root) = some .directory :=
  Disk.set_self ..

omit [ByteRuntime] in
/-- Where the directories are there, nothing changes. -/
theorem furnished_eq (hbuild : disk (resolved_root.child "build") = some .directory)
    (hharness : disk (evidenceDirectory resolved_root) = some .directory) :
    furnished resolved_root disk = disk := by
  rw [furnished, ← hbuild]
  rw [show disk.set (resolved_root.child "build") (disk (resolved_root.child "build")) = disk from
    Function.update_eq_self .., hbuild, ← hharness]
  exact Function.update_eq_self ..

omit [ByteRuntime] in
/-- A disk with the directories stays usable. -/
theorem Usable.furnished (h : Usable resolved_root disk) :
    Usable resolved_root (furnished resolved_root disk) where
  build := .inr furnished_build
  harness := .inr furnished_harness
  lock := by
    rw [lockPath, furnished_file (by decide)]
    exact h.lock
  evaluation := by
    rw [evaluationPath, furnished_file (by decide)]
    exact h.evaluation

omit [ByteRuntime] in
/-- A disk stays usable if a file of the evidence is replaced or removed. -/
theorem Usable.set_file {name : Str} {entry : Option Entry} (h : Usable resolved_root disk)
    (hname : name ∈ evidenceNames)
    (hentry : entry = none ∨ ∃ content, entry = some (.file content)) :
    Usable resolved_root (disk.set ((evidenceDirectory resolved_root).child name) entry) := by
  obtain ⟨hbuild, hharness, -⟩ := evidenceNames_distinct hname
  have hfile {name' : Str} (hother : disk ((evidenceDirectory resolved_root).child name') = none ∨
      ∃ content, disk ((evidenceDirectory resolved_root).child name') = some (.file content)) :
      (disk.set ((evidenceDirectory resolved_root).child name) entry)
        ((evidenceDirectory resolved_root).child name') = none ∨
      ∃ content, (disk.set ((evidenceDirectory resolved_root).child name) entry)
        ((evidenceDirectory resolved_root).child name') = some (.file content) := by
    obtain rfl | hne := eq_or_ne name' name
    · rwa [Disk.set_self]
    · rwa [Disk.set_of_ne fun heq => hne (Path.child_inj.mp heq).2]
  refine ⟨?_, ?_, hfile h.lock, hfile h.evaluation⟩
  · rw [Disk.set_of_ne fun heq => hbuild (Path.child_inj.mp heq).2.symm]
    exact h.build
  · have hne : evidenceDirectory resolved_root ≠ (evidenceDirectory resolved_root).child name :=
      fun heq => hharness (Path.child_inj.mp heq).2.symm
    rw [Disk.set_of_ne hne]
    exact h.harness

/-- The path of an evidence file is accepted again. -/
theorem safeEvidencePath_again {path : Path} {filename : Str}
    (h : Placed repository root resolved_root) (hpath : path = root ∨ path = resolved_root)
    (hname : filename ∈ evidenceNames) (husable : Usable resolved_root disk) :
    (safeEvidencePath path filename).Ensures (Serves repository resolved_root)
      (fun disk' r => disk' = furnished resolved_root disk ∧
        r = .ok ((evidenceDirectory resolved_root).child filename)) disk := by
  refine exactly_bind (strictRepositoryRoot_again h hpath) ?_
  refine exactly_bind (ensureSafeEvidenceDirectory_again (by simp [evidencePaths])
    (.inl (Path.parent_child ..)) husable.build h.build_inside) ?_
  have hparent : (disk.set (resolved_root.child "build") (some .directory))
      (evidenceDirectory resolved_root).parent = some .directory := by
    rw [evidenceDirectory, Path.parent_child]
    exact Disk.set_self ..
  have hne : evidenceDirectory resolved_root ≠ resolved_root.child "build" :=
    fun heq => absurd (Path.child_inj.mp heq).2 (by decide)
  refine exactly_bind (ensureSafeEvidenceDirectory_again (by simp [evidencePaths])
    (.inr hparent) (by rw [Disk.set_of_ne hne]; exact husable.harness) h.harness_inside) ?_
  refine Script.ensures_ask fun status d hE => ?_
  obtain ⟨rfl, -⟩ := hE.effect
  have hmem : (evidenceDirectory resolved_root).child filename ∈ evidencePaths resolved_root := by
    obtain rfl | rfl : filename = lockName ∨ filename = evaluationName := by
      simpa [evidenceNames] using hname
    · simp [evidencePaths, lockPath]
    · simp [evidencePaths, evaluationPath]
  have hfile : disk ((evidenceDirectory resolved_root).child filename) = none ∨
      ∃ content, disk ((evidenceDirectory resolved_root).child filename) =
        some (.file content) := by
    obtain rfl | rfl : filename = lockName ∨ filename = evaluationName := by
      simpa [evidenceNames] using hname
    · exact husable.lock
    · exact husable.evaluation
  have hstatus := hE.works hmem
  rw [show ((disk.set (resolved_root.child "build") (some .directory)).set
    (evidenceDirectory resolved_root) (some .directory)) = furnished resolved_root disk from rfl,
    furnished_file hname] at hstatus
  obtain hnone | ⟨content, hcontent⟩ := hfile
  · rw [hnone] at hstatus
    obtain ⟨error, rfl, hmissing⟩ := hstatus
    exact Script.keeps_ite (fun _ => ⟨rfl, rfl⟩) fun hother => absurd hmissing hother
  · rw [hcontent] at hstatus
    obtain rfl : status = .ok .regular := hstatus
    exact ⟨rfl, rfl⟩

/-- The evaluation of the first run is removed. -/
theorem openEvidence_again (h : Placed repository root resolved_root)
    (husable : Usable resolved_root disk) :
    (openEvidence root).Ensures (Serves repository resolved_root) (fun disk' r =>
      disk' = (furnished resolved_root disk).set (evaluationPath resolved_root) none ∧
        r = .ok (resolved_root, evaluationPath resolved_root)) disk := by
  refine exactly_bind (strictRepositoryRoot_again h (.inl rfl)) ?_
  have hremoved : (removeStaleEvaluation resolved_root).Ensures (Serves repository resolved_root)
      (fun disk' r =>
        disk' = (furnished resolved_root disk).set (evaluationPath resolved_root) none ∧
          r = .ok (evaluationPath resolved_root)) disk := by
    refine exactly_bind (safeEvidencePath_again h (.inr rfl) evaluationName_mem husable) ?_
    refine Script.ensures_ask fun status d hE => ?_
    obtain ⟨rfl, -⟩ := hE.effect
    have hstatus := hE.works (by simp [evidencePaths, evaluationPath])
    obtain hnone | ⟨content, hcontent⟩ := husable.furnished.evaluation
    · rw [show (evidenceDirectory resolved_root).child evaluationName =
        evaluationPath resolved_root from rfl, hnone] at hstatus
      obtain ⟨error, rfl, hmissing⟩ := hstatus
      refine Script.keeps_ite (fun _ => ⟨?_, rfl⟩) fun hother => absurd hmissing hother
      exact (Disk.set_none hnone).symm
    · rw [show (evidenceDirectory resolved_root).child evaluationName =
        evaluationPath resolved_root from rfl, hcontent] at hstatus
      obtain rfl : status = .ok .regular := hstatus
      refine Script.ensures_ask fun removed d hE => ?_
      obtain rfl : removed = .ok () := hE.works content hcontent
      obtain rfl := hE.effect
      exact ⟨rfl, rfl⟩
  exact exactly_bind hremoved ⟨rfl, rfl⟩

/-- What may be written is found again. -/
theorem recheckPaths_again (h : Placed repository root resolved_root)
    (husable : Usable resolved_root disk) :
    (recheckPaths resolved_root (evaluationPath resolved_root) true).Ensures
      (Serves repository resolved_root) (fun disk' r =>
        disk' = furnished resolved_root disk ∧ r = .ok ()) disk := by
  refine exactly_bind (safeEvidencePath_again h (.inr rfl) evaluationName_mem husable) ?_
  refine Script.keeps_ite (fun hne => absurd rfl hne) fun _ => ?_
  refine exactly_bind (safeEvidencePath_again h (.inr rfl) lockName_mem husable.furnished) ?_
  refine Script.keeps_ite (fun hne => absurd rfl hne) fun _ => ⟨?_, rfl⟩
  exact furnished_eq furnished_build furnished_harness

end Evidence

section Writing

variable {repository : (op : Op) → op.Answer} {resolved_root : Path} {disk : Disk}

/-- A write into a directory succeeds. -/
theorem writeJsonAtomic_again {path : Path} {payload : Json} {content : Bytes}
    (hcontent : jsonBytes payload = .ok content) (hparent : disk path.parent = some .directory)
    (htarget : disk path ≠ some .directory) (hregular : ∀ suffix : Str,
      path ≠ path.parent.child ("tmp" ++ suffix)) :
    (writeJsonAtomic path payload).Ensures (Serves repository resolved_root)
      (fun disk' r => disk' = disk.set path (some (.file content)) ∧ r = .ok ()) disk := by
  refine Script.keeps_bind.mpr (Script.keeps_ofExcept.mpr ?_)
  rw [hcontent]
  refine ⟨trivial, fun created d hE => ?_⟩
  obtain ⟨temporary_path, rfl⟩ := hE.works hparent
  obtain ⟨⟨suffix, rfl⟩, hnew, rfl⟩ := hE.effect
  set temporary_path := path.parent.child ("tmp" ++ suffix) with htemporary
  refine Script.keeps_tryCatch.mpr (Script.keeps_bind.mpr (Script.keeps_bind.mpr
    (Script.keeps_tryCatch.mpr ?_)))
  refine ⟨trivial, fun written d hE => ?_⟩
  obtain rfl : written = .ok () := hE.works [] (Disk.set_self ..)
  obtain ⟨old, hold, rfl⟩ := hE.effect
  rw [Disk.set_self, Option.some.injEq, Entry.file.injEq] at hold
  subst hold
  rw [List.nil_append, Disk.set_set]
  refine ⟨trivial, fun flushed d hE => ?_⟩
  obtain rfl : flushed = .ok () := hE.works content (Disk.set_self ..)
  obtain rfl : d = _ := hE.effect
  refine ⟨trivial, fun synced d hE => ?_⟩
  obtain rfl : synced = .ok () := hE.works content (Disk.set_self ..)
  obtain rfl : d = _ := hE.effect
  refine ⟨trivial, fun closed d hE => ?_⟩
  obtain rfl : closed = .ok () := hE.works content (Disk.set_self ..)
  obtain rfl : d = _ := hE.effect
  refine ⟨trivial, fun replaced d hE => ?_⟩
  obtain rfl : replaced = .ok () := hE.works content (Disk.set_self ..) (by
    rwa [Disk.set_of_ne (hregular suffix)])
  obtain ⟨entry, hentry, rfl⟩ := hE.effect
  rw [Disk.set_self, Option.some.injEq] at hentry
  subst hentry
  rw [Disk.set_set, Disk.set_none hnew]
  exact ⟨rfl, rfl⟩

variable [ByteRuntime]

/-- A lock on the disk is loaded. -/
theorem loadPlanLock_again {lock : PlanLock} (h : Recorded resolved_root disk lock) :
    (loadPlanLock (lockPath resolved_root)).Ensures (Serves repository resolved_root)
      (fun disk' r => disk' = disk ∧ r = .ok lock) disk := by
  obtain ⟨content, hcontent, hparsed⟩ := h
  refine Script.ensures_ask fun answer d hE => ?_
  obtain rfl : answer = .ok content := hE.works (by simp [evidencePaths]) content hcontent
  obtain rfl : d = disk := hE.effect
  exact Script.keeps_ofExcept.mpr ⟨rfl, hparsed⟩

omit [ByteRuntime] in
/-- The two last writes succeed. -/
theorem writeEvidence_again {lock : PlanLock} {evaluation : Evaluation} {content content' : Bytes}
    (hlock : jsonBytes (planLockPayload lock) = .ok content)
    (hevaluation : jsonBytes evaluation.toDict = .ok content')
    (husable : Usable resolved_root disk)
    (hharness : disk (evidenceDirectory resolved_root) = some .directory) :
    (writeEvidence resolved_root (evaluationPath resolved_root) (some lock) evaluation).Ensures
      (Serves repository resolved_root) (fun _ r => r = .ok ()) disk := by
  have hparent (name : Str) : ((evidenceDirectory resolved_root).child name).parent =
      evidenceDirectory resolved_root := Path.parent_child ..
  have hregular {name : Str} (hname : name ∈ evidenceNames) (suffix : Str) :
      (evidenceDirectory resolved_root).child name ≠
        ((evidenceDirectory resolved_root).child name).parent.child ("tmp" ++ suffix) := by
    rw [hparent]
    exact fun heq => (evidenceNames_distinct hname).2.2 suffix (Path.child_inj.mp heq).2
  have hfile {entry : Option Entry} (h : entry = none ∨ ∃ content, entry = some (.file content)) :
      entry ≠ some .directory := by
    obtain rfl | ⟨content, rfl⟩ := h
    · exact nofun
    · exact nofun
  rw [writeEvidence_some]
  generalize evaluation.toDict = payload at hevaluation ⊢
  refine exactly_bind (writeJsonAtomic_again hlock ?_ (hfile husable.lock)
    (hregular lockName_mem)) ?_
  · rw [lockPath, hparent]
    exact hharness
  have hbehind {path : Path} (hne : path ≠ lockPath resolved_root) :
      disk.set (lockPath resolved_root) (some (.file content)) path = disk path :=
    Disk.set_of_ne hne _
  have hkept : disk.set (lockPath resolved_root) (some (.file content))
      (evaluationPath resolved_root) = disk (evaluationPath resolved_root) :=
    hbehind fun heq => absurd (Path.child_inj.mp heq).2 (by decide)
  refine (writeJsonAtomic_again hevaluation ?_ (hfile (hkept.symm ▸ husable.evaluation))
    (hregular evaluationName_mem)).mono fun _ _ hr => hr.2
  rw [hparent]
  refine (hbehind fun heq => ?_).trans hharness
  exact absurd (Path.child_inj.mp heq).2 (by decide)

end Writing

end CoffeeOrder.Harness
