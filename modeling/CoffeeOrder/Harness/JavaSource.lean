import CoffeeOrder.Kit.Acyclic
import CoffeeOrder.Python.Json

/-!
# Java sources and their layers

The head of a Java source with the spelling of every import declaration, and the graph
of imports between the layers of the project as Java resolves them.
-/

namespace CoffeeOrder.Harness

open Kit Python

/-- White space, with line ends as Python reads them, or a comment. -/
inductive Trivia
  | white (c : CodePoint) (h : c ∈ ([0x20, 0x9, 0xa, 0xc] : Str))
  | lineComment (body : Str) (h : 0xa ∉ body)
  | comment (body : Str) (h : ¬("*/" : Str) <:+: body)

/-- The spelling. -/
def Trivia.text : Trivia → Str
  | .white c _ => [c]
  | .lineComment body _ => "//" ++ body ++ "\n"
  | .comment body _ => "/*" ++ body ++ "*/"

/-- What stands between two tokens. -/
abbrev Gap := List Trivia

/-- The spelling. -/
def Gap.text (gap : Gap) : Str := gap.flatMap Trivia.text

/-- A gap that separates two words. -/
abbrev Separator := { gap : Gap // gap ≠ [] }

/-- The ASCII characters of identifiers, and all others. -/
def isIdentifierPart (c : CodePoint) : Bool :=
  c.isDigit || (0x41 ≤ c && c ≤ 0x5a) || (0x61 ≤ c && c ≤ 0x7a) || c == 0x5f || c == 0x24 ||
    0x80 ≤ c

/-- The reserved words of Java. -/
def javaKeywords : List Str :=
  ["abstract", "assert", "boolean", "break", "byte", "case", "catch", "char", "class", "const",
    "continue", "default", "do", "double", "else", "enum", "extends", "final", "finally", "float",
    "for", "goto", "if", "implements", "import", "instanceof", "int", "interface", "long", "native",
    "new", "package", "private", "protected", "public", "return", "short", "static", "strictfp",
    "super", "switch", "synchronized", "this", "throw", "throws", "transient", "try", "void",
    "volatile", "while", "_", "true", "false", "null"]

/-- An identifier of Java. -/
structure Identifier where
  name : Str
  parts : name.all isIdentifierPart
  starts : name.head?.any fun c => !c.isDigit
  notKeyword : name ∉ javaKeywords

/-- A further identifier of a dotted name, with what stands around its dot. -/
structure Member where
  beforeDot : Gap
  afterDot : Gap
  identifier : Identifier

/-- The spelling. -/
def Member.text (m : Member) : Str :=
  m.beforeDot.text ++ "." ++ m.afterDot.text ++ m.identifier.name

/-- A dotted name. -/
structure DottedName where
  first : Identifier
  rest : List Member

namespace DottedName

/-- The identifiers. -/
def words (name : DottedName) : List Str :=
  name.first.name :: name.rest.map fun m => m.identifier.name

/-- The spelling. -/
def text (name : DottedName) : Str := name.first.name ++ name.rest.flatMap Member.text

end DottedName

/-- The package `com.example.coffee`. -/
def rootPackage : List Str := ["com", "example", "coffee"]

/-- An import declaration. It names types of a package, or with `static` members of a
type; `.*` stands for all of them. -/
structure ImportDeclaration where
  /-- What stands before `import`. -/
  before : Gap
  afterImport : Separator
  /-- `static` and what stands behind it. -/
  isStatic : Option Separator
  package : DottedName
  /-- The types, and the member. -/
  names : List Member
  /-- `.*`, with what stands around the dot. -/
  onDemand : Option (Gap × Gap)
  beforeEnd : Gap
  enoughNames : isStatic.toList.length + (if onDemand.isNone then 1 else 0) ≤ names.length

namespace ImportDeclaration

/-- The dotted name. -/
def nameText (i : ImportDeclaration) : Str := i.package.text ++ i.names.flatMap Member.text

/-- The declaration from `import` on. -/
def text (i : ImportDeclaration) : Str :=
  let modifier : Str := i.isStatic.elim [] fun gap => Str.ofString "static" ++ gap.1.text
  let wildcard : Str := i.onDemand.elim [] fun (beforeDot, afterDot) =>
    beforeDot.text ++ "." ++ afterDot.text ++ "*"
  "import" ++ i.afterImport.1.text ++ modifier ++ i.nameText ++ wildcard ++ i.beforeEnd.text ++ ";"

/-- The imported package is a package of the project. -/
def IsProject (i : ImportDeclaration) : Prop := rootPackage <+: i.package.words

end ImportDeclaration

/-- A Java source in a package of the project. -/
structure JavaSource where
  /-- What stands before `package`. -/
  before : Gap
  afterPackage : Separator
  package : DottedName
  beforeEnd : Gap
  imports : List ImportDeclaration
  /-- The declarations of the types. -/
  types : Str
  belowRoot : rootPackage <+: package.words

namespace JavaSource

/-- The package declaration. -/
def packageText (s : JavaSource) : Str :=
  s.before.text ++ "package" ++ s.afterPackage.1.text ++ s.package.text ++ s.beforeEnd.text ++ ";"

/-- The text of the file. -/
def text (s : JavaSource) : Str :=
  s.packageText ++ (s.imports.flatMap fun i => i.before.text ++ i.text) ++ s.types

end JavaSource

/-- A layer of the project. -/
inductive Layer
  | root
  | named (name : Str)
  deriving DecidableEq

/-- The name of the layer of the package with the given words below the root. -/
def moduleName : List Str → Str
  | [] => []
  | [first] => first
  | first :: second :: _ =>
    if first = Str.ofString "domain" ∨ first = Str.ofString "infra" then
      first ++ ("." : Str) ++ second
    else first

namespace Layer

/-- The layer of a package of the project. -/
def ofPackage (package : List Str) : Layer :=
  if package = rootPackage then .root else .named (moduleName (package.drop rootPackage.length))

/-- The name in the rules of the contract, which know the root package as `external`. -/
def name : Layer → Str
  | .root => Str.ofString "external"
  | .named name => name

/-- Whether a rule's `from` or `to` is about the layer. -/
def Matches (l : Layer) (declared : Str) : Prop :=
  l.name = declared ∨ declared ++ ("." : Str) <+: l.name

end Layer

section Graph

variable (sources : List JavaSource)

/-- A source of the first layer imports from the second, by a declaration of the given
kind. -/
def Imports (kind : JavaSource → ImportDeclaration → Prop) (a b : Layer) : Prop :=
  ∃ s ∈ sources, ∃ i ∈ s.imports, i.IsProject ∧ kind s i ∧
    Layer.ofPackage s.package.words = a ∧ Layer.ofPackage i.package.words = b

/-- The graph of imports between distinct layers. -/
def LayerEdge (a b : Layer) : Prop := a ≠ b ∧ Imports sources (fun _ _ => True) a b

/-- The contract forbids imports from the first layer from the second. -/
def Forbids (contract : Json) (source target : Str) : Prop :=
  ∃ rules rule, contract.get "forbiddenImports" = .ok (.arr rules) ∧ rule ∈ rules ∧
    rule.get "from" = .ok (.str source) ∧ rule.get "to" = .ok (.str target)

/-- No import of the given kind is forbidden. -/
def Respects (kind : JavaSource → ImportDeclaration → Prop) (contract : Json) : Prop :=
  ∀ source target, Forbids contract source target →
    ∀ a b, Imports sources kind a b → ¬(a.Matches source ∧ b.Matches target)

/-- What the contract asks of the sources. -/
structure ArchitectureHolds (contract : Json) : Prop where
  respects : Respects sources (fun _ _ => True) contract
  acyclic : Acyclic (LayerEdge sources)

end Graph

end CoffeeOrder.Harness
