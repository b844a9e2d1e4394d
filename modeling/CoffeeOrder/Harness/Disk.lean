import CoffeeOrder.Harness.Evidence
import CoffeeOrder.Kit.Effects
import CoffeeOrder.Python.JsonPayload

/-!
# What the harness does to the disk

The disk as the operations of the harness change it, and what `write_json_atomic` leaves on
it: the new content, or everything as it was.
-/

namespace CoffeeOrder.Harness

open Kit Python

/-- What stands at a path. The content of a file includes what an open handle has buffered. -/
inductive Entry
  | file (content : Bytes)
  | directory
  | symlink
  | other

/-- What `lstat` tells of it. -/
def Entry.kind : Entry → FileKind
  | .file _ => .regular
  | .directory => .directory
  | .symlink => .symlink
  | .other => .other

/-- The entries by their resolved paths. -/
abbrev Disk := Path → Option Entry

namespace Disk

/-- The disk with another entry at a path. -/
def set (disk : Disk) (path : Path) (entry : Option Entry) : Disk := Function.update disk path entry

/-- What was put at a path is there. -/
@[simp] theorem set_self (disk : Disk) (path : Path) (entry : Option Entry) :
    disk.set path entry path = entry := Function.update_self ..

/-- Other paths stay as they are. -/
theorem set_of_ne {disk : Disk} {path path' : Path} (h : path' ≠ path) (entry : Option Entry) :
    disk.set path entry path' = disk path' := Function.update_of_ne h ..

/-- The last entry put at a path counts. -/
@[simp] theorem set_set (disk : Disk) (path : Path) (entry entry' : Option Entry) :
    (disk.set path entry).set path entry' = disk.set path entry' := Function.update_idem ..

/-- What was not there is not there again. -/
theorem set_none {disk : Disk} {path : Path} (h : disk path = none) :
    disk.set path none = disk := by
  rw [set, ← h]
  exact Function.update_eq_self ..

end Disk

/-- The name of a file that `tempfile` has made. -/
def IsTemporary (directory temporary_path : Path) : Prop :=
  ∃ suffix : Str, temporary_path = directory.child ("tmp" ++ suffix)

/-- What an operation on an open file that raises may leave behind. -/
def Torn (path : Path) (disk disk' : Disk) : Prop :=
  ∃ content, disk' = disk.set path (some (.file content))

/-- What a flush, a sync or a close does to the file that is open. -/
def Kept (path : Path) (answer : Except Exc Unit) (disk disk' : Disk) : Prop :=
  match answer with
  | .ok _ => disk' = disk
  | .error _ => Torn path disk disk'

/-- What an operation does to the disk. What others do while a command, the check runner or the
preflight runs is described by `foreign`. -/
def Effect (foreign : Disk → Disk → Prop) : (op : Op) → op.Answer → Disk → Disk → Prop
  | .lstat path, answer, disk, disk' => disk' = disk ∧ match answer with
    | .ok kind => ∃ entry, disk path = some entry ∧ entry.kind = kind
    | .error error => error.type = .FileNotFoundError → disk path = none
  | .mkdir path, answer, disk, disk' => match answer with
    | .ok _ => disk path = none ∧ disk' = disk.set path (some .directory)
    | .error _ => disk' = disk
  | .unlink path _, answer, disk, disk' => match answer with
    | .ok _ => disk' = disk.set path none
    | .error _ => disk' = disk
  | .createTemporary directory, answer, disk, disk' => match answer with
    | .ok temporary_path => IsTemporary directory temporary_path ∧ disk temporary_path = none ∧
        disk' = disk.set temporary_path (some (.file []))
    | .error _ => disk' = disk
  | .write path content, answer, disk, disk' => match answer with
    | .ok _ => ∃ old, disk path = some (.file old) ∧
        disk' = disk.set path (some (.file (old ++ content)))
    | .error _ => Torn path disk disk'
  | .flush path, answer, disk, disk' | .fsync path, answer, disk, disk'
  | .close path, answer, disk, disk' => Kept path answer disk disk'
  | .replace path target, answer, disk, disk' => match answer with
    | .ok _ => ∃ entry, disk path = some entry ∧
        disk' = (disk.set path none).set target (some entry)
    | .error _ => disk' = disk
  | .run _ _ _, _, disk, disk' | .checkRunner _ _, _, disk, disk'
  | .preflight _, _, disk, disk' => foreign disk disk'
  | .resolve _ _, _, disk, disk' | .readlink _, _, disk, disk' | .readBytes _, _, disk, disk'
  | .duration, _, disk, disk' | .which _, _, disk, disk' | .isFile _, _, disk, disk'
  | .isExecutable _, _, disk, disk' | .versionInfo, _, disk, disk' => disk' = disk

/-- The steps have led from one disk to another. -/
abbrev Moves (foreign : Disk → Disk → Prop) (steps : Trace) (disk disk' : Disk) : Prop :=
  Script.Leads (Effect foreign) steps disk disk'

section Write

variable {foreign : Disk → Disk → Prop} {disk : Disk} {ε α : Type}

/-- An operation whose exception ends the script. -/
theorem ensures_perform {E : (op : Op) → op.Answer → Disk → Disk → Prop} {op : Op}
    {next : op.Answer → Except ε α} {Q : Disk → Except ε α → Prop}
    (h : ∀ answer disk', E op answer disk disk' → Q disk' (next answer)) :
    (do liftM (next (← ask op)) : Script ε Op.Answer α).Ensures E Q disk := by
  refine Script.ensures_ask fun answer disk' hE => ?_
  exact Script.keeps_ofExcept.mpr (h answer disk' hE)

/-- An operation whose exception ends the script, and what follows it. -/
theorem ensures_perform_bind {E : (op : Op) → op.Answer → Disk → Disk → Prop} {op : Op} {β : Type}
    {next : op.Answer → Except ε β} {f : β → Script ε Op.Answer α} {Q : Disk → Except ε α → Prop}
    (h : ∀ answer disk', E op answer disk disk' → match next answer with
      | .ok b => (f b).Ensures E Q disk'
      | .error e => Q disk' (.error e)) :
    (do let b ← liftM (next (← ask op)); f b : Script ε Op.Answer α).Ensures E Q disk := by
  refine Script.ensures_ask fun answer disk' hE => ?_
  show (Script.ofExcept (next answer) >>= f).Ensures E Q disk'
  exact Script.keeps_bind.mpr (Script.keeps_ofExcept.mpr (h answer disk' hE))

/-- The temporary file has been written, or it is torn. -/
def Filled (disk : Disk) (temporary_path : Path) (content : Bytes) (disk' : Disk)
    (r : Except Exc Unit) : Prop :=
  match r with
  | .ok _ => disk' = disk.set temporary_path (some (.file content))
  | .error _ => Torn temporary_path disk disk'

/-- Tearing a file twice tears it once. -/
theorem Torn.again {path : Path} {disk disk' disk'' : Disk} (h : Torn path disk disk')
    (h' : Torn path disk' disk'') : Torn path disk disk'' := by
  obtain ⟨content, rfl⟩ := h
  obtain ⟨content', rfl⟩ := h'
  exact ⟨content', Disk.set_set ..⟩

/-- Any other content is a torn file. -/
theorem torn_set (path : Path) (disk : Disk) (content : Bytes) :
    Torn path disk (disk.set path (some (.file content))) := ⟨content, rfl⟩

/-- A further operation on the open file leaves it as it is, or tears it. -/
theorem Kept.filled {temporary_path : Path} {content : Bytes} {answer : Except Exc Unit}
    {disk disk' : Disk}
    (h : Kept temporary_path answer (disk.set temporary_path (some (.file content))) disk') :
    Filled disk temporary_path content disk' answer := by
  cases answer with
  | ok _ => exact h
  | error e => exact (torn_set ..).again h

/-- Writing, flushing and syncing fills the temporary file or tears it. -/
theorem writeTemporary_body (disk : Disk) (temporary_path : Path) (content : Bytes) :
    (do
      liftM (← ask (.write temporary_path content))
      liftM (← ask (.flush temporary_path))
      liftM (← ask (.fsync temporary_path)) : Script Exc Op.Answer Unit).Ensures (Effect foreign)
      (Filled disk temporary_path content) (disk.set temporary_path (some (.file []))) := by
  refine ensures_perform_bind fun answer written hE => ?_
  cases answer with
  | error e => exact (torn_set ..).again hE
  | ok _ =>
    obtain ⟨old, hold, rfl⟩ := hE
    rw [Disk.set_self, Option.some.injEq, Entry.file.injEq] at hold
    subst hold
    rw [List.nil_append, Disk.set_set]
    refine ensures_perform_bind fun answer flushed hE => ?_
    cases answer with
    | error e => exact (torn_set ..).again hE
    | ok _ =>
      obtain rfl : flushed = _ := hE
      exact ensures_perform fun answer synced hE => Kept.filled hE

/-- Nothing but the temporary file is touched while it is written. -/
theorem writeTemporary_ensures (disk : Disk) (temporary_path : Path) (content : Bytes) :
    (writeTemporary temporary_path content).Ensures (Effect foreign)
      (Filled disk temporary_path content) (disk.set temporary_path (some (.file []))) := by
  refine Script.keeps_bind.mpr (Script.keeps_tryCatch.mpr ?_)
  refine (writeTemporary_body disk temporary_path content).mono fun disk' r hr => ?_
  cases r with
  | ok _ =>
    obtain rfl : disk' = _ := hr
    exact ensures_perform fun answer closed hE => Kept.filled hE
  | error e =>
    refine ensures_perform_bind fun answer closed hE => ?_
    cases answer with
    | ok _ =>
      obtain rfl : closed = disk' := hE
      exact hr
    | error e' => exact Torn.again hr hE

/-- The new content of the path is that of the payload, and nothing else has changed. -/
def Written (path : Path) (payload : Json) (disk disk' : Disk) : Prop :=
  ∃ content, jsonBytes payload = .ok content ∧ disk' = disk.set path (some (.file content))

/-- A temporary file could not be removed. -/
def Leftover (E : (op : Op) → op.Answer → Disk → Disk → Prop) (path : Path) (disk disk' : Disk) :
    Prop :=
  ∃ temporary_path error, IsTemporary path.parent temporary_path ∧ disk temporary_path = none ∧
    Torn temporary_path disk disk' ∧ E (.unlink temporary_path true) (.error error) disk' disk'

/-- What a write leaves on the disk: the new content, everything as it was, or a temporary file
if its removal raises. -/
def Replaced (E : (op : Op) → op.Answer → Disk → Disk → Prop) (path : Path) (payload : Json)
    (disk disk' : Disk) (r : Except Exc Unit) : Prop :=
  match r with
  | .ok _ => Written path payload disk disk'
  | .error _ => disk' = disk ∨ Leftover E path disk disk'

/-- A write replaces the file as a whole or leaves it as it was. -/
theorem writeJsonAtomic_ensures {E : (op : Op) → op.Answer → Disk → Disk → Prop}
    (hE : ∀ op answer s s', E op answer s s' → Effect foreign op answer s s') (path : Path)
    (payload : Json) (disk : Disk) :
    (writeJsonAtomic path payload).Ensures E (Replaced E path payload disk) disk := by
  refine Script.keeps_bind.mpr (Script.keeps_ofExcept.mpr ?_)
  cases hcontent : jsonBytes payload with
  | error error => exact .inl rfl
  | ok content =>
    refine ensures_perform_bind fun answer created hcreate => ?_
    replace hcreate := hE _ _ _ _ hcreate
    cases answer with
    | error error => exact .inl hcreate
    | ok temporary_path =>
      obtain ⟨htemporary, hnew, rfl⟩ := hcreate
      -- an exception leaves the temporary file torn, and the cleanup removes it
      have hcleanup {disk' : Disk} (error : Exc) (htorn : Torn temporary_path disk disk') :
          (do liftM (← ask (.unlink temporary_path true)); throw error :
            Script Exc Op.Answer Unit).Ensures E (Replaced E path payload disk) disk' := by
        refine ensures_perform_bind fun answer removed hremove => ?_
        have hremoved := hE _ _ _ _ hremove
        cases answer with
        | ok _ =>
          obtain ⟨left, rfl⟩ := htorn
          obtain rfl : removed = _ := hremoved
          rw [Disk.set_set, Disk.set_none hnew]
          exact .inl rfl
        | error error' =>
          obtain rfl : removed = disk' := hremoved
          exact .inr ⟨temporary_path, error', htemporary, hnew, htorn, hremove⟩
      refine Script.keeps_tryCatch.mpr (Script.keeps_bind.mpr ?_)
      have hfilled := (writeTemporary_ensures disk temporary_path content).of_changes hE
      refine hfilled.mono fun disk' r hr => ?_
      cases r with
      | error error => exact hcleanup error hr
      | ok _ =>
        obtain rfl : disk' = _ := hr
        refine ensures_perform fun answer replaced hreplace => ?_
        replace hreplace := hE _ _ _ _ hreplace
        cases answer with
        | error error =>
          obtain rfl : replaced = _ := hreplace
          exact hcleanup error (torn_set ..)
        | ok _ =>
          obtain ⟨entry, hentry, rfl⟩ := hreplace
          rw [Disk.set_self, Option.some.injEq] at hentry
          subst hentry
          rw [Disk.set_set, Disk.set_none hnew]
          exact ⟨content, hcontent, rfl⟩

end Write

section Frame

variable {foreign : Disk → Disk → Prop} {directory : Path} {name : Str} {disk disk' : Disk}

/-- The names of the evidence files. -/
def evidenceNames : List Str := [lockName, evaluationName]

/-- They are neither names of evidence directories nor of temporary files. -/
theorem evidenceNames_distinct (h : name ∈ evidenceNames) :
    name ≠ "build" ∧ name ≠ "harness" ∧ ∀ suffix : Str, name ≠ "tmp" ++ suffix := by
  have hall : evidenceNames.all (fun name =>
      name ≠ "build" && name ≠ "harness" && name.take 3 ≠ "tmp") = true := by decide
  have hname := List.all_eq_true.mp hall name h
  simp only [Bool.and_eq_true, decide_eq_true_eq] at hname
  refine ⟨hname.1.1, hname.1.2, fun suffix hsuffix => hname.2 ?_⟩
  rw [hsuffix]
  rfl

/-- The lock is evidence. -/
theorem lockName_mem : lockName ∈ evidenceNames := by decide

/-- So is the evaluation. -/
theorem evaluationName_mem : evaluationName ∈ evidenceNames := by decide

/-- Nobody but the harness changes the file. -/
def Untouched (foreign : Disk → Disk → Prop) (path : Path) : Prop :=
  ∀ disk disk', foreign disk disk' → disk' path = disk path

/-- Quiet operations do not change evidence files. -/
theorem quiet_keeps (hname : name ∈ evidenceNames)
    (hforeign : Untouched foreign (directory.child name))
    {op : Op} {answer : op.Answer} (hop : op.Quiet) (hE : Effect foreign op answer disk disk') :
    disk' (directory.child name) = disk (directory.child name) := by
  obtain ⟨hbuild, hharness, -⟩ := evidenceNames_distinct hname
  cases op with
  | mkdir path =>
    cases answer with
    | error error => exact congrFun hE _
    | ok _ =>
      obtain ⟨-, rfl⟩ := hE
      refine Disk.set_of_ne (fun heq => ?_) _
      obtain ⟨parent, rfl | rfl⟩ := hop
      · exact hbuild (Path.child_inj.mp heq).2
      · exact hharness (Path.child_inj.mp heq).2
  | lstat path => exact congrFun hE.1 _
  | run command cwd dont_write_bytecode => exact hforeign _ _ hE
  | resolve path strict => exact congrFun hE _
  | readlink path => exact congrFun hE _
  | readBytes path => exact congrFun hE _
  | _ => exact absurd hop id

/-- Neither does a write that raises, if another file is left behind. -/
theorem Replaced.keeps {E : (op : Op) → op.Answer → Disk → Disk → Prop} {path : Path}
    {payload : Json} {error : Exc} (hname : name ∈ evidenceNames)
    (h : Replaced E path payload disk disk' (.error error)) :
    disk' (directory.child name) = disk (directory.child name) := by
  obtain rfl | ⟨temporary_path, error', ⟨suffix, rfl⟩, -, ⟨content, rfl⟩, -⟩ := h
  · rfl
  · refine Disk.set_of_ne (fun heq => ?_) _
    exact (evidenceNames_distinct hname).2.2 suffix (Path.child_inj.mp heq).2

end Frame

section Payload

end Payload

namespace Sample

end Sample

end CoffeeOrder.Harness
