import CoffeeOrder.Harness.ApiDocumentation
import CoffeeOrder.Harness.ControllerSource

/-!
# The routes of the controllers

The routes that the oracle finds in the sources of the controllers, against the endpoints that
the annotations declare: a path is found where it is written plainly, and lost elsewhere.
-/

namespace CoffeeOrder.Harness

open Kit Python

/-- The methods of the handler annotations. -/
inductive HandlerMethod
  | get
  | post
  | put
  | delete
  | patch
  deriving DecidableEq

namespace HandlerMethod

/-- The name in the annotation. -/
def text : HandlerMethod → Str
  | .get => "Get"
  | .post => "Post"
  | .put => "Put"
  | .delete => "Delete"
  | .patch => "Patch"

/-- The method of the requests. -/
def request : HandlerMethod → Str
  | .get => "GET"
  | .post => "POST"
  | .put => "PUT"
  | .delete => "DELETE"
  | .patch => "PATCH"

/-- The annotation without its arguments. -/
def marker (method : HandlerMethod) : Str := "@" ++ method.text ++ "Mapping"

end HandlerMethod

/-- A handler: its annotation and the text up to the next one. -/
structure Handler where
  method : HandlerMethod
  mapping : Mapping
  body : Str

/-- The text of the handler. -/
def Handler.text (handler : Handler) : Str :=
  handler.method.marker ++ (handler.mapping.text ++ handler.body)

/-- A controller: what stands before the annotation of its class, this annotation, what stands
between it and the word `class`, the name, what stands before the first handler, and the
handlers. -/
structure Controller where
  lead : Str
  base : Option Mapping
  declaration : Str
  separator : Separator
  name : Str
  opening : Str
  handlers : List Handler

namespace Controller

/-- The text in front of the word `class`. -/
def front (controller : Controller) : Str :=
  controller.lead ++ (controller.base.elim [] (fun mapping =>
    Str.ofString "@RequestMapping" ++ mapping.text) ++ controller.declaration)

/-- The text behind the name of the class up to its end. -/
def members (controller : Controller) : Str :=
  controller.opening ++ controller.handlers.flatMap Handler.text

/-- The text from the word `class` on. -/
def classText (controller : Controller) : Str :=
  Str.ofString "class" ++ (controller.separator.1.text ++ (controller.name ++ controller.members))

/-- The source. -/
def text (controller : Controller) : Str := controller.front ++ controller.classText

/-- The path of the class. -/
def basePath (controller : Controller) : Str := controller.base.elim [] Mapping.path

/-- The path of the class if it is a plain one. -/
def plainBase (controller : Controller) : Str := controller.base.elim [] Mapping.plainPath

/-- All annotations. -/
def mappings (controller : Controller) : List Mapping :=
  controller.base.toList ++ controller.handlers.map Handler.mapping

/-- The endpoint of a handler. -/
def endpoint (controller : Controller) (handler : Handler) : Endpoint :=
  ⟨handler.method.request, joinPaths controller.basePath handler.mapping.path, controller.name⟩

/-- The endpoints. -/
def endpoints (controller : Controller) : List Endpoint :=
  controller.handlers.map controller.endpoint

end Controller

section Handlers

variable {handler : Handler} {rest : Str}

end Handlers

section Paths

variable {mapping : Mapping}

end Paths

section Sources

variable [ByteRuntime] {controller : Controller}

namespace Controller

omit [ByteRuntime] in
/-- The path that the oracle finds at the class. -/
def seenBase (controller : Controller) : Str :=
  ((searchFrom baseMappingAt none controller.text).getD none).getD []

namespace Tidy

end Tidy

/-- Every annotation has a plain path or none. -/
def Plain (controller : Controller) : Prop :=
  ∀ mapping ∈ controller.mappings, mapping.plain = true ∨ mapping.arguments.literals = []

/-- The path of a handler stays the same when the paths that are not plain are left out. -/
def Agrees (controller : Controller) (handler : Handler) : Prop :=
  joinPaths controller.plainBase handler.mapping.plainPath =
    joinPaths controller.basePath handler.mapping.path

variable [CaseRuntime]

/-- The route of a match. -/
def route (controller : Controller) (found : Str × Str) : Endpoint :=
  ⟨upper found.1, joinPaths controller.seenBase found.2,
    (searchFrom classAt none controller.text).getD []⟩

/-- The routes that the oracle finds. -/
def routes (controller : Controller) : List Endpoint :=
  (allMatches httpMappingAt controller.text).map controller.route

end Controller

variable [CaseRuntime] {controllers : List (Str × Controller)}

end Sources

namespace Sample

/-- A literal without escapes. -/
def literal (text : Str) (h : 0x22 ∉ text) : Literal := ⟨text, text, fun _ => ⟨rfl, h⟩⟩

end Sample

end CoffeeOrder.Harness
