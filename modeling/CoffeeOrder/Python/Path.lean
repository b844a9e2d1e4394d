import CoffeeOrder.Python.Json

/-!
# POSIX paths

`pathlib.Path`: a root and the parts after it. No part is empty, `.` or holds a slash.
-/

namespace CoffeeOrder.Python

/-- `pathlib.Path`. -/
structure Path where
  /-- `""`, `"/"` or `"//"`. -/
  root : Str
  parts : List Str
  deriving DecidableEq

namespace Path

/-- `Path(s)`. -/
def ofStr (s : Str) : Path where
  root :=
    if s.startsWith "/" then
      if s.startsWith "//" && !s.startsWith "///" then "//" else "/"
    else []
  parts := (s.split .slash).filter fun part => part ≠ [] && part ≠ "."

/-- `path.is_absolute()`. -/
def isAbsolute (path : Path) : Bool := path.root ≠ []

/-- `path / other`. -/
def join (path other : Path) : Path :=
  if other.isAbsolute then other else ⟨path.root, path.parts ++ other.parts⟩

/-- `path / name` for a name without slashes. -/
def child (path : Path) (name : Str) : Path := ⟨path.root, path.parts ++ [name]⟩

/-- `path.parent`. -/
def parent (path : Path) : Path := ⟨path.root, path.parts.dropLast⟩

/-- `path.as_posix()` and `str(path)`. -/
def asPosix (path : Path) : Str :=
  if path.root = [] ∧ path.parts = [] then "." else path.root ++ Str.join "/" path.parts

/-- `path.relative_to(other)`. -/
def relativeTo [Runtime] (path other : Path) : Except Exc Path :=
  if path.root = other.root ∧ other.parts <+: path.parts then
    .ok ⟨[], path.parts.drop other.parts.length⟩
  else .error ⟨.ValueError, Runtime.repr path.asPosix ++ " is not in the subpath of " ++
    Runtime.repr other.asPosix⟩

/-- The parent of a child. -/
theorem parent_child (path : Path) (name : Str) : (path.child name).parent = path := by
  simp [child, parent]

/-- A child is known by its parent and its name. -/
theorem child_inj {path path' : Path} {name name' : Str} :
    path.child name = path'.child name' ↔ path = path' ∧ name = name' := by
  constructor
  · intro h
    obtain ⟨hroot, hparts⟩ := Path.mk.inj h
    obtain ⟨hparts, hname⟩ := List.append_inj' hparts rfl
    exact ⟨by cases path; cases path'; simp_all, List.singleton_inj.mp hname⟩
  · rintro ⟨rfl, rfl⟩
    rfl

end Path

end CoffeeOrder.Python
