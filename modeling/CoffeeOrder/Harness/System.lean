import CoffeeOrder.Harness.Policy
import CoffeeOrder.Kit.Script
import CoffeeOrder.Python.Path

/-!
# What the harness asks its surroundings

The scripts of `agent-harness.py` ask for files, processes and the check runner, each
of which may answer as it likes or raise.
-/

namespace CoffeeOrder.Harness

open Kit Python

/-- What `lstat` tells of a file. -/
inductive FileKind
  | symlink
  | directory
  | regular
  | other
  deriving DecidableEq

/-- `subprocess.CompletedProcess[bytes]`. -/
structure CompletedProcess where
  returncode : ℤ
  stdout : Bytes
  stderr : Bytes

/-- A value that a check runner may have put into a field. -/
inductive FieldValue
  /-- `None`. -/
  | null
  | bool (b : Bool)
  | int (n : ℤ)
  | str (s : Str)
  | state (state : State)
  | tuple (items : List FieldValue)
  /-- Any other object. -/
  | other

/-- An element of what a check runner returned. -/
inductive Candidate
  | checkResult (check_id state reason command exit_code duration_ms : FieldValue)
  /-- Not a `CheckResult`. -/
  | other

/-- What `tuple` makes of the value that a check runner returned: it raises, or it is the
list of the elements. -/
abbrev RawChecks := Except Failure (List Candidate)

/-- What a script asks for. -/
inductive Op
  | resolve (path : Path) (strict : Bool)
  | lstat (path : Path)
  | readlink (path : Path)
  | readBytes (path : Path)
  | mkdir (path : Path)
  | unlink (path : Path) (missing_ok : Bool)
  /-- `tempfile.NamedTemporaryFile(mode="wb", dir=directory, delete=False)`. -/
  | createTemporary (directory : Path)
  | write (path : Path) (content : Bytes)
  | flush (path : Path)
  | fsync (path : Path)
  | close (path : Path)
  | replace (path target : Path)
  /-- `subprocess.run`, with or without `PYTHONDONTWRITEBYTECODE`. -/
  | run (command : List Str) (cwd : Path) (dont_write_bytecode : Bool)
  /-- The milliseconds since the command was started. -/
  | duration
  /-- `shutil.which`. -/
  | which (name : Str)
  /-- `path.is_file()`. -/
  | isFile (path : Path)
  /-- `os.access(path, os.X_OK)`. -/
  | isExecutable (path : Path)
  /-- `sys.version_info`. -/
  | versionInfo
  | checkRunner (root : Path) (check_ids : List Str)
  /-- `preflight(root)`. -/
  | preflight (root : Path)
  deriving DecidableEq

/-- The answer to a question. Nearly all may raise. -/
abbrev Op.Answer : Op → Type
  | .resolve _ _ => Except Exc Path
  | .lstat _ => Except Exc FileKind
  | .readlink _ => Except Exc Str
  | .readBytes _ => Except Exc Bytes
  | .createTemporary _ => Except Exc Path
  | .run _ _ _ => Except Exc CompletedProcess
  | .duration => ℕ
  | .which _ => Option Str
  | .isFile _ | .isExecutable _ => Bool
  | .versionInfo => ℕ × ℕ × ℕ
  | .checkRunner _ _ | .preflight _ => Except Failure RawChecks
  | _ => Except Exc Unit

/-- A function of the harness. -/
abbrev HarnessM := Script Failure Op.Answer

/-- The steps of a run. -/
abbrev Trace := List (Step Op.Answer)

/-- Ask, and look at the answer whatever it is. -/
def ask {ε : Type} (op : Op) : Script ε Op.Answer op.Answer := .ask op .done

/-- `path.resolve(strict)`. -/
def resolve (path : Path) (strict : Bool := false) : HarnessM Path := do
  orRaise (← ask (.resolve path strict))

/-- The operation is neither a call of the check runner or the preflight nor one on an evidence
file. -/
def Op.Quiet : Op → Prop
  | .resolve _ _ | .lstat _ | .readlink _ | .readBytes _ | .run _ _ _ => True
  | .mkdir path => ∃ parent : Path, path = parent.child "build" ∨ path = parent.child "harness"
  | _ => False

/-- The script issues quiet operations only, and no violation that it raises claims to pass. -/
abbrev Sound {α : Type} (p : HarnessM α) : Prop := p.Within Op.Quiet Failure.Rejects

/-- A quiet operation is sound. -/
theorem sound_ask (op : Op) (h : op.Quiet) : Sound (ask op) := ⟨h, fun _ => trivial⟩

/-- A given result is sound if its error does not claim to pass. -/
theorem sound_lift {α : Type} {x : Except Failure α} (h : ErrorsIn Failure.Rejects x) :
    Sound (liftM x : HarnessM α) := Script.Within.ofExcept h

/-- Raising an exception of Python is sound. -/
theorem sound_orRaise {α : Type} (x : Except Exc α) : Sound (liftM (orRaise x) : HarnessM α) :=
  sound_lift (orRaise_rejects x)

/-- Resolving a path is sound. -/
theorem sound_resolve (path : Path) (strict : Bool) : Sound (resolve path strict) :=
  (sound_ask (.resolve path strict) trivial).bind fun _ => sound_orRaise _

/-- A question that is handled later if it raises. -/
theorem ask_lift_within {α β : Type} (op : Op) (h : op.Quiet) {next : op.Answer → Except Exc α}
    {f : α → Script Exc Op.Answer β} (hf : ∀ a, (f a).Within Op.Quiet fun _ => True) :
    (do let a ← next (← ask op); f a : Script Exc Op.Answer β).Within Op.Quiet fun _ => True :=
  ⟨h, fun _ => (Script.Within.ofExcept fun _ _ => trivial).bind hf⟩

/-- What follows a question has to do for every answer. -/
theorem meets_ask {ε α : Type} {A : (op : Op) → op.Answer → Prop} {P : ε → Prop} {Q : α → Prop}
    {op : Op} {f : op.Answer → Script ε Op.Answer α}
    (h : ∀ answer, A op answer → (f answer).Meets A P Q) : (ask op >>= f).Meets A P Q := h

end CoffeeOrder.Harness
