import CoffeeOrder.Python.Text

/-!
# Exceptions and JSON values

The exceptions that the scripts tell apart, JSON values as `json.loads` returns
them, and the parts of the runtime that stay abstract.
-/

namespace CoffeeOrder.Python

/-- The classes of exceptions that the scripts name, and all others. -/
inductive ExcType
  | OSError
  | FileNotFoundError
  | FileExistsError
  | ValueError
  | JSONDecodeError
  | UnicodeDecodeError
  | UnicodeEncodeError
  /-- `_DuplicateJsonKey` of the harness. -/
  | DuplicateJsonKey
  | KeyError
  | TypeError
  | AttributeError
  /-- Another subclass of `Exception`. -/
  | other (name : Str)
  deriving DecidableEq

/-- `type(e).__name__`. -/
def ExcType.name : ExcType → Str
  | .OSError => "OSError"
  | .FileNotFoundError => "FileNotFoundError"
  | .FileExistsError => "FileExistsError"
  | .ValueError => "ValueError"
  | .JSONDecodeError => "JSONDecodeError"
  | .UnicodeDecodeError => "UnicodeDecodeError"
  | .UnicodeEncodeError => "UnicodeEncodeError"
  | .DuplicateJsonKey => "_DuplicateJsonKey"
  | .KeyError => "KeyError"
  | .TypeError => "TypeError"
  | .AttributeError => "AttributeError"
  | .other name => name

/-- A raised exception and its text. -/
structure Exc where
  type : ExcType
  text : Str
  deriving DecidableEq

/-- `isinstance(e, OSError)`. -/
def Exc.isOSError (e : Exc) : Bool :=
  e.type = .OSError || e.type = .FileNotFoundError || e.type = .FileExistsError

/-- `isinstance(e, ValueError)`. -/
def Exc.isValueError (e : Exc) : Bool :=
  e.type = .ValueError || e.type = .JSONDecodeError || e.type = .UnicodeDecodeError ||
    e.type = .UnicodeEncodeError || e.type = .DuplicateJsonKey

/-- A value that `json.loads` returns. Of a float only its truth value matters. -/
inductive Json
  | null
  | bool (b : Bool)
  | int (n : ℤ)
  | float (text : Str) (nonzero : Bool)
  | str (s : Str)
  | arr (items : List Json)
  | obj (entries : List (Str × Json))

/-- What a script takes from its Python runtime. -/
class Runtime where
  /-- `json.loads`. -/
  loads : Str → Except Exc Json
  /-- `repr` of a string. -/
  repr : Str → Str
  /-- `str` of a JSON value. -/
  format : Json → Str
  /-- `sys.executable`. -/
  executable : Str

/-- `int(digits)`, which refuses more than 4300 digits. -/
def intOfDigits (digits : Str) : Except Exc ℤ :=
  if digits.length > 4300 then
    .error ⟨.ValueError,
      "Exceeds the limit (4300 digits) for integer string conversion: value has " ++
      Str.ofInt digits.length ++
      (" digits; use sys.set_int_max_str_digits() to increase the limit" : Str)⟩
  else .ok (Str.natOfDigits digits)

namespace Json

/-- The name of the type in the texts of exceptions. -/
def typeName : Json → Str
  | .null => "NoneType"
  | .bool _ => "bool"
  | .int _ => "int"
  | .float _ _ => "float"
  | .str _ => "str"
  | .arr _ => "list"
  | .obj _ => "dict"

/-- `bool(value)`. -/
def truthy : Json → Bool
  | .null => false
  | .bool b => b
  | .int n => n ≠ 0
  | .float _ nonzero => nonzero
  | .str s => s ≠ []
  | .arr items => !items.isEmpty
  | .obj entries => !entries.isEmpty

/-- Neither a list nor a dictionary. -/
def isScalar : Json → Bool
  | .arr _ | .obj _ => false
  | _ => true

/-- The exception of looking up a method that a value does not have. -/
def noAttribute (value : Json) (name : Str) : Exc :=
  ⟨.AttributeError, "'" ++ value.typeName ++ "' object has no attribute '" ++ name ++ "'"⟩

/-- `value.get(key)`; a missing key gives `None`. -/
def get (value : Json) (key : Str) : Except Exc Json :=
  match value with
  | .obj entries => .ok ((entries.lookup key).getD .null)
  | _ => .error (value.noAttribute "get")

/-- `value[key]`. -/
def item (value : Json) (key : Str) : Except Exc Json :=
  match value with
  | .obj entries =>
    match entries.lookup key with
    | some found => .ok found
    | none => .error ⟨.KeyError, "'" ++ key ++ "'"⟩
  | .str _ => .error ⟨.TypeError, "string indices must be integers, not 'str'"⟩
  | .arr _ => .error ⟨.TypeError, "list indices must be integers or slices, not str"⟩
  | _ => .error ⟨.TypeError, "'" ++ value.typeName ++ "' object is not subscriptable"⟩

/-- `value == s`. -/
def isStr (value : Json) (s : Str) : Bool :=
  match value with
  | .str t => t = s
  | _ => false

/-- A comparison with a string. -/
theorem isStr_iff {value : Json} {s : Str} : value.isStr s = true ↔ value = .str s := by
  cases value <;> simp [isStr]

end Json

end CoffeeOrder.Python
