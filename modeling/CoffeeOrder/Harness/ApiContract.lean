import CoffeeOrder.Harness.Architecture
import CoffeeOrder.Kit.TextSearch

/-!
# The API contract oracle

`validate_api_contract` compares the endpoints of the contract with the documentation and with
the routes that regular expressions read from the controllers, and checks the wrappers and the
error codes.
-/

namespace CoffeeOrder.Harness

open Kit Python

/-- What the oracle reads of the repository. -/
structure ApiFiles where
  /-- The text of a file by its path, if it is one. -/
  file : Str → Option (Except Exc Str)
  /-- The paths and texts of the controllers, in the order of their paths. -/
  controllers : List (Str × Except Exc Str)

/-- The upper case of a character that is not ASCII. -/
class CaseRuntime where
  upper : CodePoint → Str

/-- A method, a path and a controller. -/
structure Endpoint where
  method : Str
  path : Str
  controller : Str
  deriving DecidableEq

/-- The key in the sets of endpoints. -/
def Endpoint.key (e : Endpoint) : Str × Str := (e.method, e.path)

/-- `f"{method} {path}"`. -/
def Endpoint.mention (e : Endpoint) : Str := e.method ++ " " ++ e.path

/-- A part of a regular expression. -/
inductive Piece
  | text (s : Str)
  /-- `\s*`. -/
  | space
  /-- `\s+`. -/
  | spaces
  /-- `[^c]+`. -/
  | without (c : CodePoint)

/-- The text behind the part, if it matches. -/
def Piece.eat (text : Str) : Piece → Option Str
  | .text s => if text.startsWith s then some (text.drop s.length) else none
  | .space => some (text.dropWhile CodePoint.isSpace)
  | .spaces =>
    if text.head?.any CodePoint.isSpace then some (text.dropWhile CodePoint.isSpace) else none
  | .without c => if text.head?.any (· ≠ c) then some (text.dropWhile (· ≠ c)) else none

/-- The text behind all parts, none of which begins with what the part before it repeats. -/
def eatAll (pieces : List Piece) (text : Str) : Option Str := pieces.foldlM Piece.eat text

/-- `["']`. -/
def isQuote (c : CodePoint) : Bool := c == 0x22 || c == 0x27

/-- `\(\s*(?:path\s*=\s*)?["']([^"']*)["']\s*\)`: the group and the text behind the match. -/
def pathArgument (text : Str) : Option (Str × Str) :=
  let opened : Str := (text.drop 1).dropWhile CodePoint.isSpace
  let quoted : Str := (eatAll [.text "path", .space, .text "=", .space] opened).getD opened
  let content : Str := (quoted.drop 1).takeWhile fun c => !isQuote c
  let closed : Str := (quoted.drop 1).drop content.length
  let behind : Str := (closed.drop 1).dropWhile CodePoint.isSpace
  if text.head? = some 0x28 ∧ quoted.head?.any isQuote ∧ closed.head?.any isQuote ∧
      behind.head? = some 0x29 then
    some (content, behind.drop 1)
  else none

/-- The names in the handler annotations. -/
def httpMethods : List Str := ["Get", "Post", "Put", "Delete", "Patch"]

/-- `HTTP_MAPPING_PATTERN` at the start of a text: the groups and the text behind the match. -/
def httpMappingAt (text : Str) : Option ((Str × Str) × Str) :=
  httpMethods.findSome? fun method =>
    (Piece.eat text (.text ("@" ++ method ++ "Mapping"))).map fun rest =>
      match pathArgument rest with
      | some (suffix, behind) => ((method, suffix), behind)
      | none => ((method, []), rest)

/-- `BASE_MAPPING_PATTERN` at the start of a text: the group. -/
def baseMappingAt (_ : Option CodePoint) (text : Str) : Option (Option Str) :=
  (Piece.eat text (.text "@RequestMapping")).map fun rest => (pathArgument rest).map Prod.fst

/-- `_join_paths`; a base of `None` is like an empty one. -/
def joinPaths (base suffix : Str) : Str :=
  if suffix = [] then base.orElse "/"
  else if base = [] then "/" ++ suffix.dropWhile (· = CodePoint.slash)
  else base.rstripOf .slash ++ "/" ++ suffix.dropWhile (· = CodePoint.slash)

/-- `'('` and a comma between two strings. -/
def pairRepr [Runtime] (pair : Str × Str) : Str :=
  "(" ++ Runtime.repr pair.1 ++ ", " ++ Runtime.repr pair.2 ++ ")"

/-- The order of pairs of strings. -/
def pairLe (a b : Str × Str) : Bool := a.1 < b.1 || (a.1 = b.1 && a.2 ≤ b.2)

/-- `sorted(pairs)` of a set. -/
def sortedPairs (pairs : List (Str × Str)) : List (Str × Str) :=
  pairs.dedup.insertionSort fun a b => pairLe a b

/-- `http.HTTPStatus.__members__`. -/
def httpStatusMembers : List (Str × ℤ) :=
  let members : List (String × ℤ) :=
    [("CONTINUE", 100), ("SWITCHING_PROTOCOLS", 101), ("PROCESSING", 102), ("EARLY_HINTS", 103),
    ("OK", 200), ("CREATED", 201), ("ACCEPTED", 202), ("NON_AUTHORITATIVE_INFORMATION", 203),
    ("NO_CONTENT", 204), ("RESET_CONTENT", 205), ("PARTIAL_CONTENT", 206), ("MULTI_STATUS", 207),
    ("ALREADY_REPORTED", 208), ("IM_USED", 226), ("MULTIPLE_CHOICES", 300),
    ("MOVED_PERMANENTLY", 301), ("FOUND", 302), ("SEE_OTHER", 303), ("NOT_MODIFIED", 304),
    ("USE_PROXY", 305), ("TEMPORARY_REDIRECT", 307), ("PERMANENT_REDIRECT", 308),
    ("BAD_REQUEST", 400), ("UNAUTHORIZED", 401), ("PAYMENT_REQUIRED", 402), ("FORBIDDEN", 403),
    ("NOT_FOUND", 404), ("METHOD_NOT_ALLOWED", 405), ("NOT_ACCEPTABLE", 406),
    ("PROXY_AUTHENTICATION_REQUIRED", 407), ("REQUEST_TIMEOUT", 408), ("CONFLICT", 409),
    ("GONE", 410), ("LENGTH_REQUIRED", 411), ("PRECONDITION_FAILED", 412),
    ("CONTENT_TOO_LARGE", 413), ("REQUEST_ENTITY_TOO_LARGE", 413), ("URI_TOO_LONG", 414),
    ("REQUEST_URI_TOO_LONG", 414), ("UNSUPPORTED_MEDIA_TYPE", 415), ("RANGE_NOT_SATISFIABLE", 416),
    ("REQUESTED_RANGE_NOT_SATISFIABLE", 416), ("EXPECTATION_FAILED", 417), ("IM_A_TEAPOT", 418),
    ("MISDIRECTED_REQUEST", 421), ("UNPROCESSABLE_CONTENT", 422), ("UNPROCESSABLE_ENTITY", 422),
    ("LOCKED", 423), ("FAILED_DEPENDENCY", 424), ("TOO_EARLY", 425), ("UPGRADE_REQUIRED", 426),
    ("PRECONDITION_REQUIRED", 428), ("TOO_MANY_REQUESTS", 429),
    ("REQUEST_HEADER_FIELDS_TOO_LARGE", 431), ("UNAVAILABLE_FOR_LEGAL_REASONS", 451),
    ("INTERNAL_SERVER_ERROR", 500), ("NOT_IMPLEMENTED", 501), ("BAD_GATEWAY", 502),
    ("SERVICE_UNAVAILABLE", 503), ("GATEWAY_TIMEOUT", 504), ("HTTP_VERSION_NOT_SUPPORTED", 505),
    ("VARIANT_ALSO_NEGOTIATES", 506), ("INSUFFICIENT_STORAGE", 507), ("LOOP_DETECTED", 508),
    ("NOT_EXTENDED", 510), ("NETWORK_AUTHENTICATION_REQUIRED", 511)]
  members.map fun (name, value) => (Str.ofString name, value)

/-- An integer; `True` and `False` are integers, too. -/
def intValue : Json → Option ℤ
  | .int n => some n
  | .bool b => some (if b then 1 else 0)
  | _ => none

/-- `_require_file` and the text of the file. -/
def requireText (files : ApiFiles) (relative_path : Str) : Except OracleError Str :=
  match files.file relative_path with
  | some text => text.mapError .raised
  | none => throw (.OracleFailure ("필수 oracle 파일이 없습니다: " ++ relative_path))

section Oracle

variable [ByteRuntime] [CaseRuntime]

/-- `s.upper()`. -/
def upper (s : Str) : Str :=
  s.flatMap fun c =>
    if c < 0x80 then if 0x61 ≤ c && c ≤ 0x7a then [c - 0x20] else [c] else CaseRuntime.upper c

omit [CaseRuntime] in
/-- `\b` between the character before a text and its first one. -/
def isBoundary (before : Option CodePoint) (text : Str) : Bool :=
  before.any isWordChar != text.head?.any isWordChar

/-- `CLASS_PATTERN` at the start of a text: the group. -/
def classAt (before : Option CodePoint) (text : Str) : Option Str :=
  match eatAll [.text "class", .spaces] text with
  | some rest =>
    let name : Str := rest.takeWhile isWordChar
    if isBoundary before text && name ≠ [] then some name else none
  | none => none

/-- The routes of a controller. -/
def fileRoutes (controller_file : Str × Except Exc Str) : Except OracleError (List Endpoint) := do
  let text ← controller_file.2.mapError .raised
  let some controller := searchFrom classAt none text
    | throw (.OracleFailure ("controller class 선언이 없습니다: " ++ controller_file.1))
  let base : Str := ((searchFrom baseMappingAt none text).getD none).getD []
  return (allMatches httpMappingAt text).map fun (method, suffix) =>
    ⟨upper method, joinPaths base suffix, controller⟩

/-- `_controller_routes`. -/
def controllerRoutes (controllers : List (Str × Except Exc Str)) :
    Except OracleError (List Endpoint) := do
  return (← controllers.mapM fileRoutes).flatten

omit [ByteRuntime] in
/-- An endpoint of the contract. -/
def readEndpoint (raw_endpoint : Json) : Except OracleError Endpoint := do
  let .obj _ := raw_endpoint
    | throw (.OracleFailure "API contract endpoint 형식이 올바르지 않습니다.")
  let method ← dictGet raw_endpoint "method"
  let path ← dictGet raw_endpoint "path"
  let controller ← dictGet raw_endpoint "controller"
  let refusal : OracleError :=
    .OracleFailure "API contract endpoint의 method/path/controller가 올바르지 않습니다."
  let (.str method, .str path, .str controller) := (method, path, controller) | throw refusal
  raiseIf (method = [] ∨ path = [] ∨ controller = []) refusal
  return ⟨upper method, path, controller⟩

/-- The loop body for an endpoint of the contract. -/
def recordEndpoint (documentation_text : Str) (expected : List Endpoint) (raw_endpoint : Json) :
    Except OracleError (List Endpoint) := do
  let endpoint ← readEndpoint raw_endpoint
  raiseIf (endpoint.key ∈ expected.map Endpoint.key)
    (.OracleFailure ("API contract endpoint가 중복되었습니다: " ++ pairRepr endpoint.key))
  raiseIf (!documentation_text.contains endpoint.mention)
    (.OracleFailure ("API 문서에 endpoint가 없습니다: " ++ endpoint.mention))
  return expected ++ [endpoint]

omit [CaseRuntime] in
/-- The comparison of the routes with the endpoints of the contract. -/
def compareRoutes (actual_routes expected : List Endpoint) : Except OracleError Unit := do
  let actual := sortedPairs (actual_routes.map Endpoint.key)
  let declared := sortedPairs (expected.map Endpoint.key)
  raiseIf (actual ≠ declared) (.OracleFailure
    ("controller endpoint와 contract가 다릅니다: actual=[" ++ Str.join ", " (actual.map pairRepr) ++
      "], expected=[" ++ Str.join ", " (declared.map pairRepr) ++ "]"))
  let expected_controllers := expected.map fun e => (e.key, e.controller)
  actual_routes.forM fun route =>
    raiseIf (expected_controllers.lookup route.key ≠ some route.controller)
      (.OracleFailure ("endpoint controller가 다릅니다: " ++ route.mention ++ " -> " ++
        route.controller))

/-- `record\s+ApiResponse<[^>]+>\s*\(\s*boolean\s+success\s*,\s*T\s+data\s*,\s*ApiError\s+error`. -/
def responsePattern : List Piece :=
  [.text "record", .spaces, .text "ApiResponse<", .without 0x3e, .text ">", .space, .text "(",
    .space, .text "boolean", .spaces, .text "success", .space, .text ",", .space, .text "T",
    .spaces, .text "data", .space, .text ",", .space, .text "ApiError", .spaces, .text "error"]

omit [ByteRuntime] [CaseRuntime] in
/-- The checks of the response wrapper and of the exception handler. -/
def checkWrappers (files : ApiFiles) : Except OracleError Unit := do
  let response_text ← requireText files
    "src/main/java/com/example/coffee/global/response/ApiResponse.java"
  raiseIf ((searchFrom (fun _ text => eatAll responsePattern text) none response_text).isNone)
    (.OracleFailure "ApiResponse의 success/data/error wrapper가 계약과 다릅니다.")
  let handler_text ← requireText files
    "src/main/java/com/example/coffee/global/error/GlobalExceptionHandler.java"
  raiseIf (!handler_text.contains "@RestControllerAdvice" ||
      !handler_text.contains "ApiResponse.failure")
    (.OracleFailure "공통 API 오류 wrapper를 처리하는 GlobalExceptionHandler가 없습니다.")

omit [CaseRuntime] in
/-- `\bcode\(HttpStatus\.([A-Z_]+)` at the start of a text: the group. -/
def errorStatusAt (code : Str) (before : Option CodePoint) (text : Str) : Option Str :=
  match Piece.eat text (.text (code ++ "(HttpStatus.")) with
  | some rest =>
    let name : Str := rest.takeWhile fun c => (0x41 ≤ c && c ≤ 0x5a) || c == 0x5f
    if isBoundary before text && name ≠ [] then some name else none
  | none => none

omit [CaseRuntime] in
/-- The check of an error code. -/
def checkErrorCode (error_text documentation_text : Str) (raw_error : Str × Json) :
    Except OracleError Unit := do
  let (code, status) := raw_error
  let some status := intValue status
    | throw (.OracleFailure "API contract errorCodes 형식이 올바르지 않습니다.")
  let some name := searchFrom (errorStatusAt code) none error_text
    | throw (.OracleFailure ("ErrorCode에 계약된 code가 없습니다: " ++ code))
  raiseIf (httpStatusMembers.lookup name ≠ some status)
    (.OracleFailure ("ErrorCode status가 계약과 다릅니다: " ++ code))
  raiseIf (!documentation_text.contains ("\x60" ++ code ++ "\x60"))
    (.OracleFailure ("API 문서에 error code가 없습니다: " ++ code))

omit [CaseRuntime] in
/-- The checks of the error codes, and their number. -/
def checkErrorCodes (contract : Json) (files : ApiFiles) (documentation_text : Str) :
    Except OracleError ℕ := do
  let error_text ← requireText files "src/main/java/com/example/coffee/global/error/ErrorCode.java"
  let .obj (raw_error :: raw_errors) ← dictGet contract "errorCodes"
    | throw (.OracleFailure "API contract errorCodes가 비어 있습니다.")
  (raw_error :: raw_errors).forM (checkErrorCode error_text documentation_text)
  return (raw_error :: raw_errors).length

omit [ByteRuntime] [CaseRuntime] in
/-- The checks of the contract before its endpoints, and the documentation. -/
def readDocumentation (contract : Json) (files : ApiFiles) : Except OracleError Str := do
  let .obj _ := contract
    | throw (.OracleFailure "harness/contracts/api-contract.json 최상위 값은 object여야 합니다.")
  let version ← dictGet contract "schemaVersion"
  raiseIf (!isOne version) (.OracleFailure "API contract schemaVersion은 1이어야 합니다.")
  let .str documentation ← dictGet contract "documentation"
    | throw (.OracleFailure "API contract documentation 경로가 없습니다.")
  requireText files documentation

/-- `validate_api_contract`, given the content of the contract. -/
def validateApiContract (contract : Json) (files : ApiFiles) : Except OracleError Str := do
  let documentation_text ← readDocumentation contract files
  let .arr (raw_endpoint :: raw_endpoints) ← dictGet contract "endpoints"
    | throw (.OracleFailure "API contract endpoints가 비어 있습니다.")
  let expected ← (raw_endpoint :: raw_endpoints).foldlM (recordEndpoint documentation_text) []
  let actual_routes ← controllerRoutes files.controllers
  compareRoutes actual_routes expected
  checkWrappers files
  let errors ← checkErrorCodes contract files documentation_text
  return "api-contract PASS: " ++ Str.ofInt expected.length ++ ("개 endpoint, " : Str) ++
    Str.ofInt errors ++ ("개 error code" : Str)

end Oracle

end CoffeeOrder.Harness
