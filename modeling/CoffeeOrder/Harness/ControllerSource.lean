import CoffeeOrder.Harness.ApiContract
import CoffeeOrder.Harness.JavaSource

/-!
# Controllers as they are written

The source of a controller: its class with the annotation `@RequestMapping`, and its handlers
with theirs. An annotation may name a path, and the patterns of the oracle read some of these
paths only.
-/

namespace CoffeeOrder.Harness

open Kit Python

/-- There is no comment in the gap. -/
def Gap.blank (gap : Gap) : Bool := gap.text.all CodePoint.isSpace

/-- A string literal: the text between its quotes and the string that it stands for. -/
structure Literal where
  text : Str
  value : Str
  unescaped : 0x5c ∉ text → value = text ∧ 0x22 ∉ text

namespace Literal

/-- The literal in its quotes. -/
def quoted (path : Literal) : Str := 0x22 :: (path.text ++ [0x22])

/-- There is neither a quote nor an escape in the literal. -/
def plain (path : Literal) : Bool := path.text.all fun c => !isQuote c && c != 0x5c

end Literal

/-- The attributes that name a path. -/
inductive PathName
  | path
  | value

/-- The name in the source. -/
def PathName.text : PathName → Str
  | .path => "path"
  | .value => "value"

/-- The other attributes of a mapping annotation. -/
inductive AttributeName
  | consumes
  | headers
  | method
  | name
  | params
  | produces
  | version

/-- The name in the source. -/
def AttributeName.text : AttributeName → Str
  | .consumes => "consumes"
  | .headers => "headers"
  | .method => "method"
  | .name => "name"
  | .params => "params"
  | .produces => "produces"
  | .version => "version"

/-- An argument of an annotation, without the white space around it. -/
inductive Content
  /-- `"/path"`. -/
  | bare (path : Literal)
  /-- `path = "/path"` or `value = "/path"`. -/
  | named (name : PathName) (before_ after_ : Gap) (path : Literal)
  /-- Another attribute, with the text behind its name. -/
  | other (key : AttributeName) (rest : Str)

namespace Content

/-- The text of the argument. -/
def text : Content → Str
  | .bare path => path.quoted
  | .named name before_ after_ path =>
    name.text ++ (before_.text ++ 0x3d :: (after_.text ++ path.quoted))
  | .other key rest => key.text ++ rest

/-- The path of the argument. -/
def literal? : Content → Option Literal
  | .bare path => some path
  | .named _ _ _ path => some path
  | .other _ _ => none

/-- The argument is a plain path, bare or as `path=`, with no comment in it. -/
def plain : Content → Bool
  | .bare path => path.plain
  | .named .path before_ after_ path => before_.blank && after_.blank && path.plain
  | .named .value _ _ _ => false
  | .other _ _ => false

end Content

/-- An argument and what stands around it. -/
structure MappingArgument where
  lead : Gap
  content : Content
  trail : Gap

/-- The text of the argument. -/
def MappingArgument.text (argument : MappingArgument) : Str :=
  argument.lead.text ++ (argument.content.text ++ argument.trail.text)

/-- The arguments of an annotation. -/
inductive MappingArguments
  /-- There is no parenthesis. -/
  | absent
  /-- There is nothing in the parentheses. -/
  | empty (before_ inner : Gap)
  | listed (before_ : Gap) (first : MappingArgument) (others : List MappingArgument)

namespace MappingArguments

/-- The text of the arguments. -/
def text : MappingArguments → Str
  | .absent => []
  | .empty before_ inner => before_.text ++ 0x28 :: (inner.text ++ [0x29])
  | .listed before_ first others =>
    before_.text ++ 0x28 :: (first.text ++
      (others.flatMap (fun argument => 0x2c :: argument.text) ++ [0x29]))

/-- The paths among the arguments. -/
def literals : MappingArguments → List Literal
  | .absent => []
  | .empty _ _ => []
  | .listed _ first others => (first :: others).filterMap (·.content.literal?)

end MappingArguments

/-- A mapping annotation behind its name: its arguments, of which at most one is a path. -/
structure Mapping where
  arguments : MappingArguments
  single : arguments.literals.length ≤ 1

namespace Mapping

/-- The text of the annotation behind its name. -/
def text (mapping : Mapping) : Str := mapping.arguments.text

/-- The path of the annotation; one without a path has the empty one. -/
def path (mapping : Mapping) : Str :=
  match mapping.arguments.literals with
  | [] => []
  | literal :: _ => literal.value

/-- The only argument is a plain path, right behind the name of the annotation and with no comment
around it. -/
def plain (mapping : Mapping) : Bool :=
  match mapping.arguments with
  | .listed before_ first [] =>
    before_.text.isEmpty && first.lead.blank && first.content.plain && first.trail.blank
  | _ => false

/-- The path if it is a plain one. -/
def plainPath (mapping : Mapping) : Str := if mapping.plain then mapping.path else []

end Mapping

section Pattern

end Pattern

/-- What stands behind an argument up to the next text. -/
def MappingArguments.behind (first : MappingArgument) (others : List MappingArgument)
    (rest : Str) : Str :=
  first.trail.text ++ (others.flatMap (fun argument => 0x2c :: argument.text) ++ 0x29 :: rest)

namespace Mapping

variable {mapping : Mapping}

end Mapping

end CoffeeOrder.Harness
