import CoffeeOrder.Harness.ApiContract

/-!
# The documentation of the endpoints

The oracle looks for the text of each endpoint anywhere in the documentation, so that a longer
path that begins with it is taken for it.
-/

namespace CoffeeOrder.Harness

open Kit Python

/-- The text of the endpoint occurs where the path does not go on. -/
def MentionsExactly (continues : CodePoint → Bool) (documentation_text : Str) (e : Endpoint) :
    Prop :=
  ∃ before_ after_, documentation_text = before_ ++ (e.mention ++ after_) ∧
    ∀ c ∈ after_.head?, continues c = false

/-- The text of the endpoint occurs, and the path goes on wherever it does. -/
def OnlyContinued (continues : CodePoint → Bool) (documentation_text : Str) (e : Endpoint) :
    Prop :=
  documentation_text.contains e.mention = true ∧
    ∀ before_ after_, documentation_text = before_ ++ (e.mention ++ after_) →
      ∃ c ∈ after_.head?, continues c = true

/-- Whatever occurs does so exactly or only where the path goes on. -/
theorem mentionsExactly_iff {continues : CodePoint → Bool} {documentation_text : Str}
    {e : Endpoint} (h : documentation_text.contains e.mention = true) :
    MentionsExactly continues documentation_text e ↔
      ¬OnlyContinued continues documentation_text e := by
  constructor
  · rintro ⟨before_, after_, htext, hends⟩ ⟨-, hgoes⟩
    obtain ⟨c, hc, hcontinues⟩ := hgoes before_ after_ htext
    exact nomatch (hends c hc).symm.trans hcontinues
  · intro hnot
    by_contra hexact
    refine hnot ⟨h, fun before_ after_ htext => ?_⟩
    by_contra hends
    refine hexact ⟨before_, after_, htext, fun c hc => ?_⟩
    exact Bool.eq_false_iff.mpr fun hcontinues => hends ⟨c, hc, hcontinues⟩

section Oracle

variable [ByteRuntime] [CaseRuntime]

omit [ByteRuntime] in
/-- An endpoint that the contract lists. -/
def InContract (contract : Json) (e : Endpoint) : Prop :=
  ∃ items item method, contract.get "endpoints" = .ok (.arr items) ∧ item ∈ items ∧
    item.get "method" = .ok (.str method) ∧ e.method = upper method ∧
    item.get "path" = .ok (.str e.path) ∧ item.get "controller" = .ok (.str e.controller)

/-- The file that the contract names as its documentation. -/
def IsDocumentation (contract : Json) (files : ApiFiles) (text : Str) : Prop :=
  ∃ path, contract.get "documentation" = .ok (.str path) ∧ files.file path = some (.ok text)

/-- Every endpoint of the contract is documented itself. -/
def EndpointsDocumented (continues : CodePoint → Bool) (contract : Json) (files : ApiFiles) :
    Prop :=
  ∀ text e, IsDocumentation contract files text → InContract contract e →
    MentionsExactly continues text e

/-- The checks of the oracle but for the one that looks for the endpoints in the documentation. -/
structure OtherChecks (contract : Json) (files : ApiFiles) (text : Str)
    (expected : List Endpoint) : Prop where
  documentation : readDocumentation contract files = .ok text
  endpoints : ∃ raw_endpoints, contract.get "endpoints" = .ok (.arr raw_endpoints) ∧
    raw_endpoints ≠ [] ∧ raw_endpoints.mapM readEndpoint = .ok expected
  keys_nodup : (expected.map Endpoint.key).Nodup
  routes : ∃ actual_routes, controllerRoutes files.controllers = .ok actual_routes ∧
    compareRoutes actual_routes expected = .ok ()
  wrappers : checkWrappers files = .ok ()
  errors : ∃ n, checkErrorCodes contract files text = .ok n

omit [ByteRuntime] in
/-- The fields of an endpoint are read from its entry. -/
theorem readEndpoint_get {raw_endpoint : Json} {e : Endpoint}
    (h : readEndpoint raw_endpoint = .ok e) :
    ∃ method, raw_endpoint.get "method" = .ok (.str method) ∧ e.method = upper method ∧
      raw_endpoint.get "path" = .ok (.str e.path) ∧
      raw_endpoint.get "controller" = .ok (.str e.controller) := by
  unfold readEndpoint at h
  cases raw_endpoint with
  | obj entries =>
    obtain ⟨method, hmethod, h⟩ := Checked.bind_eq_ok.mp h
    obtain ⟨path, hpath, h⟩ := Checked.bind_eq_ok.mp h
    obtain ⟨controller, hcontroller, h⟩ := Checked.bind_eq_ok.mp h
    cases method with
    | str method =>
      cases path with
      | str path =>
        cases controller with
        | str controller =>
          obtain ⟨-, h⟩ := Checked.raiseIf_bind_eq_ok.mp h
          obtain rfl := Except.ok.inj h
          exact ⟨_, Checked.mapError_eq_ok.mp hmethod, rfl, Checked.mapError_eq_ok.mp hpath,
            Checked.mapError_eq_ok.mp hcontroller⟩
        | _ => exact nomatch h
      | _ => exact nomatch h
    | _ => exact nomatch h
  | _ => exact nomatch h

/-- An endpoint is recorded if it is new and the text mentions it. -/
theorem recordEndpoint_eq_ok {text : Str} {recorded expected : List Endpoint}
    {raw_endpoint : Json} : recordEndpoint text recorded raw_endpoint = .ok expected ↔
      ∃ e, readEndpoint raw_endpoint = .ok e ∧ e.key ∉ recorded.map Endpoint.key ∧
        text.contains e.mention = true ∧ expected = recorded ++ [e] := by
  refine Checked.bind_eq_ok.trans (exists_congr fun e => and_congr_right fun _ => ?_)
  refine Checked.raiseIf_bind_eq_ok.trans (and_congr_right fun _ => ?_)
  refine Checked.raiseIf_bind_eq_ok.trans (and_congr ?_ (Checked.pure_eq_ok.trans eq_comm))
  rw [Bool.not_eq_true', Bool.not_eq_false]

/-- The loop over the endpoints, from those that it has recorded on. -/
theorem recordEndpoints_eq_ok {text : Str} {raw_endpoints : List Json}
    {recorded expected : List Endpoint} (hnodup : (recorded.map Endpoint.key).Nodup) :
    raw_endpoints.foldlM (recordEndpoint text) recorded = .ok expected ↔
      ∃ found, raw_endpoints.mapM readEndpoint = .ok found ∧ expected = recorded ++ found ∧
        (expected.map Endpoint.key).Nodup ∧ ∀ e ∈ found, text.contains e.mention = true := by
  induction raw_endpoints generalizing recorded with
  | nil =>
    constructor
    · intro h
      obtain rfl := Checked.pure_eq_ok.mp h
      exact ⟨[], rfl, (List.append_nil _).symm, hnodup, fun _ he => nomatch he⟩
    · rintro ⟨found, hfound, rfl, -, -⟩
      obtain rfl := Checked.pure_eq_ok.mp hfound
      exact Checked.pure_eq_ok.mpr (List.append_nil _).symm
  | cons raw_endpoint raw_endpoints ih =>
    rw [List.foldlM_cons, Checked.bind_eq_ok]
    constructor
    · rintro ⟨next, hnext, hrest⟩
      obtain ⟨e, hread, hnew, hmentions, rfl⟩ := recordEndpoint_eq_ok.mp hnext
      have hnodup' : ((recorded ++ [e]).map Endpoint.key).Nodup := by
        rw [List.map_append]
        exact List.nodup_append.mpr ⟨hnodup, List.nodup_singleton _, fun a ha b hb heq =>
          hnew (List.mem_singleton.mp hb ▸ heq ▸ ha)⟩
      obtain ⟨found, hfound, rfl, hkeys, hall⟩ := (ih hnodup').mp hrest
      rw [List.append_assoc, List.singleton_append] at hkeys ⊢
      refine ⟨e :: found, ?_, rfl, hkeys, List.forall_mem_cons.mpr ⟨hmentions, hall⟩⟩
      exact Checked.mapM_eq_ok.mpr (.cons hread (Checked.mapM_eq_ok.mp hfound))
    · rintro ⟨found, hfound, rfl, hkeys, hall⟩
      obtain ⟨e, rest, hread, hrest, rfl⟩ :=
        List.forall₂_cons_left_iff.mp (Checked.mapM_eq_ok.mp hfound)
      obtain ⟨hmentions, hall⟩ := List.forall_mem_cons.mp hall
      have hsplit : recorded ++ e :: rest = recorded ++ [e] ++ rest := List.append_cons ..
      have hnodup' : ((recorded ++ [e]).map Endpoint.key).Nodup := by
        rw [hsplit, List.map_append] at hkeys
        exact hkeys.of_append_left
      have hnew : e.key ∉ recorded.map Endpoint.key := by
        rw [List.map_append] at hnodup'
        exact fun hmem => (List.nodup_append.mp hnodup').2.2 _ hmem _ List.mem_cons_self rfl
      exact ⟨_, recordEndpoint_eq_ok.mpr ⟨e, hread, hnew, hmentions, rfl⟩,
        (ih hnodup').mpr ⟨rest, Checked.mapM_eq_ok.mpr hrest, hsplit, hkeys, hall⟩⟩

/-- The whole loop. -/
theorem readEndpoints_eq_ok {text : Str} {raw_endpoints : List Json} {expected : List Endpoint} :
    raw_endpoints.foldlM (recordEndpoint text) [] = .ok expected ↔
      raw_endpoints.mapM readEndpoint = .ok expected ∧ (expected.map Endpoint.key).Nodup ∧
        ∀ e ∈ expected, text.contains e.mention = true := by
  have hempty : (([] : List Endpoint).map Endpoint.key).Nodup := List.nodup_nil
  refine (recordEndpoints_eq_ok hempty).trans ⟨?_, ?_⟩
  · rintro ⟨found, hfound, rfl, hkeys, hall⟩
    exact ⟨hfound, hkeys, hall⟩
  · rintro ⟨hread, hkeys, hall⟩
    exact ⟨expected, hread, rfl, hkeys, hall⟩

/-- **What passes.** -/
theorem validateApiContract_passes_iff {contract : Json} {files : ApiFiles} :
    (∃ message, validateApiContract contract files = .ok message) ↔
      ∃ text expected, OtherChecks contract files text expected ∧
        ∀ e ∈ expected, text.contains e.mention = true := by
  constructor
  · rintro ⟨message, h⟩
    obtain ⟨text, hdocumentation, h⟩ := Checked.bind_eq_ok.mp h
    obtain ⟨raw, hraw, h⟩ := Checked.bind_eq_ok.mp h
    split at h
    · obtain ⟨expected, hexpected, h⟩ := Checked.bind_eq_ok.mp h
      obtain ⟨routes, hroutes, h⟩ := Checked.bind_eq_ok.mp h
      obtain ⟨_, hcompare, h⟩ := Checked.bind_eq_ok.mp h
      obtain ⟨_, hwrappers, h⟩ := Checked.bind_eq_ok.mp h
      obtain ⟨n, herrors, -⟩ := Checked.bind_eq_ok.mp h
      obtain ⟨hread, hkeys, hall⟩ := readEndpoints_eq_ok.mp hexpected
      exact ⟨text, _, ⟨hdocumentation, ⟨_, Checked.mapError_eq_ok.mp hraw, List.cons_ne_nil _ _,
        hread⟩, hkeys, ⟨routes, hroutes, hcompare⟩, hwrappers, n, herrors⟩, hall⟩
    · exact nomatch h
  · rintro ⟨text, expected, ⟨hdocumentation, ⟨raw, hraw, hne, hread⟩, hkeys,
      ⟨routes, hroutes, hcompare⟩, hwrappers, n, herrors⟩, hall⟩
    cases raw with
    | nil => exact absurd rfl hne
    | cons first rest =>
      have hexpected := readEndpoints_eq_ok.mpr ⟨hread, hkeys, hall⟩
      exact ⟨_, Checked.bind_eq_ok.mpr ⟨text, hdocumentation,
        Checked.bind_eq_ok.mpr ⟨_, Checked.mapError_eq_ok.mpr hraw,
        Checked.bind_eq_ok.mpr ⟨expected, hexpected,
        Checked.bind_eq_ok.mpr ⟨routes, hroutes,
        Checked.bind_eq_ok.mpr ⟨_, hcompare,
        Checked.bind_eq_ok.mpr ⟨_, hwrappers,
        Checked.bind_eq_ok.mpr ⟨n, herrors, rfl⟩⟩⟩⟩⟩⟩⟩⟩

omit [ByteRuntime] [CaseRuntime] in
/-- The text that is read is that of the documentation. -/
theorem isDocumentation_of_read {contract : Json} {files : ApiFiles} {text : Str}
    (h : readDocumentation contract files = .ok text) : IsDocumentation contract files text := by
  unfold readDocumentation at h
  split at h
  · obtain ⟨_, -, h⟩ := Checked.bind_eq_ok.mp h
    obtain ⟨-, h⟩ := Checked.raiseIf_bind_eq_ok.mp h
    obtain ⟨path, hpath, h⟩ := Checked.bind_eq_ok.mp h
    split at h
    · unfold requireText at h
      split at h
      · rename_i hfile
        exact ⟨_, Checked.mapError_eq_ok.mp hpath, hfile.trans
          (congrArg some (Checked.mapError_eq_ok.mp h))⟩
      · exact nomatch h
    · exact nomatch h
  · exact nomatch h

omit [ByteRuntime] [CaseRuntime] in
/-- The documentation has only one text. -/
theorem IsDocumentation.unique {contract : Json} {files : ApiFiles} {text text' : Str}
    (h : IsDocumentation contract files text) (h' : IsDocumentation contract files text') :
    text = text' := by
  obtain ⟨path, hpath, hfile⟩ := h
  obtain ⟨path', hpath', hfile'⟩ := h'
  obtain rfl := Json.str.inj (Except.ok.inj (hpath.symm.trans hpath'))
  exact Except.ok.inj (Option.some.inj (hfile.symm.trans hfile'))

section Listed

variable {contract : Json} {expected : List Endpoint} {e : Endpoint}

omit [ByteRuntime]

/-- What is read is what the contract lists. -/
theorem inContract_of_read
    (h : ∃ raw_endpoints, contract.get "endpoints" = .ok (.arr raw_endpoints) ∧
      raw_endpoints ≠ [] ∧ raw_endpoints.mapM readEndpoint = .ok expected) (he : e ∈ expected) :
    InContract contract e := by
  obtain ⟨raw_endpoints, hraw, -, hread⟩ := h
  obtain ⟨item, hitem, hok⟩ := Checked.exists_source_of_mapM_eq_ok hread he
  obtain ⟨method, hmethod, hupper, hpath, hcontroller⟩ := readEndpoint_get hok
  exact ⟨raw_endpoints, item, method, hraw, hitem, hmethod, hupper, hpath, hcontroller⟩

/-- What the contract lists is read. -/
theorem mem_of_inContract
    (h : ∃ raw_endpoints, contract.get "endpoints" = .ok (.arr raw_endpoints) ∧
      raw_endpoints ≠ [] ∧ raw_endpoints.mapM readEndpoint = .ok expected)
    (he : InContract contract e) : e ∈ expected := by
  obtain ⟨raw_endpoints, hraw, -, hread⟩ := h
  obtain ⟨items, item, method, hitems, hitem, hmethod, hupper, hpath, hcontroller⟩ := he
  obtain rfl := Json.arr.inj (Except.ok.inj (hraw.symm.trans hitems))
  obtain ⟨read, hmem, hok⟩ := Checked.exists_of_mapM_eq_ok hread hitem
  obtain ⟨method', hmethod', hupper', hpath', hcontroller'⟩ := readEndpoint_get hok
  have hsame : read = e := by
    obtain rfl := Json.str.inj (Except.ok.inj (hmethod.symm.trans hmethod'))
    have hpaths := Json.str.inj (Except.ok.inj (hpath.symm.trans hpath'))
    have hcontrollers := Json.str.inj (Except.ok.inj (hcontroller.symm.trans hcontroller'))
    cases read
    cases e
    simp_all
  exact hsame ▸ hmem

end Listed

/-- **The documented endpoints.** If the oracle passes, every endpoint of the contract is
documented itself, if and only if another check refuses, or an endpoint does not occur at all,
or none occurs only where its path goes on. -/
theorem api_documented_iff (continues : CodePoint → Bool) (contract : Json) (files : ApiFiles) :
    ((∃ message, validateApiContract contract files = .ok message) →
      EndpointsDocumented continues contract files) ↔
    ∀ text expected, OtherChecks contract files text expected →
      (∃ e ∈ expected, text.contains e.mention = false) ∨
        ∀ e ∈ expected, ¬OnlyContinued continues text e := by
  constructor
  · intro hdocumented text expected hchecks
    by_contra hnot
    obtain ⟨hoccurs, hcontinued⟩ := not_or.mp hnot
    have hall : ∀ e ∈ expected, text.contains e.mention = true := fun e he =>
      Bool.not_eq_false _ ▸ fun habsent => hoccurs ⟨e, he, habsent⟩
    refine hcontinued fun e he => (mentionsExactly_iff (hall e he)).mp ?_
    have hpasses := validateApiContract_passes_iff.mpr ⟨text, expected, hchecks, hall⟩
    refine hdocumented hpasses text e (isDocumentation_of_read hchecks.documentation) ?_
    exact inContract_of_read hchecks.endpoints he
  · intro hcondition hpasses text e hdocumentation hlisted
    obtain ⟨text', expected, hchecks, hall⟩ := validateApiContract_passes_iff.mp hpasses
    obtain rfl := hdocumentation.unique (isDocumentation_of_read hchecks.documentation)
    have he := mem_of_inContract hchecks.endpoints hlisted
    obtain ⟨absent, habsent, hnot⟩ | hcontinued := hcondition text expected hchecks
    · exact nomatch hnot.symm.trans (hall absent habsent)
    · exact (mentionsExactly_iff (hall e he)).mpr (hcontinued e he)

end Oracle

namespace Sample

/-- Upper case on ASCII. -/
abbrev caseRuntime : CaseRuntime := ⟨fun c => [c]⟩

/-- A controller with one handler. -/
def controllerText (base controller : Str) : Str :=
  ("@RestController\n@RequestMapping(\"" : Str) ++ base ++ "\")\npublic class " ++ controller ++
    " \x7b\n\t@GetMapping\n\tpublic void get() \x7b\x7d\n\x7d\n"

/-- The controllers of two endpoints, one of which is the beginning of the other. -/
def menuControllers : List (Str × Except Exc Str) :=
  [("src/main/java/com/example/coffee/domain/menu/controller/MenuController.java",
      .ok (controllerText "/menus" "MenuController")),
    ("src/main/java/com/example/coffee/domain/ranking/controller/PopularMenuController.java",
      .ok (controllerText "/menus/popular" "PopularMenuController"))]

/-- The contract of these endpoints. -/
def menuContract : Json :=
  .obj [("schemaVersion", .int 1), ("documentation", .str "docs/api-spec.md"),
    ("endpoints", .arr [
      .obj [("method", .str "GET"), ("path", .str "/menus"), ("controller", .str "MenuController")],
      .obj [("method", .str "GET"), ("path", .str "/menus/popular"),
        ("controller", .str "PopularMenuController")]]),
    ("errorCodes", .obj [("MENU_NOT_FOUND", .int 404)])]

/-- A documentation of the longer path only. -/
def popularDocumentation : Str := "GET /menus/popular\n\x60MENU_NOT_FOUND\x60\n"

/-- The files that the oracle reads. -/
def menuTexts : List (Str × Str) :=
  [("docs/api-spec.md", popularDocumentation),
    ("src/main/java/com/example/coffee/global/response/ApiResponse.java",
      "public record ApiResponse<T>(boolean success, T data, ApiError error) \x7b\x7d"),
    ("src/main/java/com/example/coffee/global/error/GlobalExceptionHandler.java",
      "@RestControllerAdvice class H \x7b Object o = ApiResponse.failure(null); \x7d"),
    ("src/main/java/com/example/coffee/global/error/ErrorCode.java",
      "MENU_NOT_FOUND(HttpStatus.NOT_FOUND, \"\");")]

/-- The sample files. -/
def menuFiles : ApiFiles := ⟨fun path => (menuTexts.lookup path).map .ok, menuControllers⟩

end Sample

/-- What goes on with a path. -/
def continuesPath [ByteRuntime] (c : CodePoint) : Bool :=
  isWordChar c || c ∈ ("/-.~%\x7b\x7d" : Str)

/-- Wherever the text of the shorter path occurs, the path goes on. -/
theorem Sample.menus_continued (before_ after_ : Str)
    (h : Sample.popularDocumentation = before_ ++ (("GET /menus" : Str) ++ after_)) :
    ∃ c ∈ after_.head?, continuesPath c = true := by
  have hall : (List.range Sample.popularDocumentation.length).all (fun n =>
      !Str.startsWith (Sample.popularDocumentation.drop n) "GET /menus" ||
        (Sample.popularDocumentation.drop (n + 10)).head?.any continuesPath) = true := by
    decide +kernel
  have hbehind : Sample.popularDocumentation.drop before_.length =
      ("GET /menus" : Str) ++ after_ := by
    rw [h, List.drop_left]
  have hafter : Sample.popularDocumentation.drop (before_.length + 10) = after_ := by
    rw [← List.drop_drop, hbehind]
    exact List.drop_left' (by decide)
  have hlength : before_.length < Sample.popularDocumentation.length := by
    have hmention : ("GET /menus" : Str).length = 10 := by decide
    rw [h, List.length_append, List.length_append, hmention]
    omega
  have hat := List.all_eq_true.mp hall before_.length (List.mem_range.mpr hlength)
  have hstarts :
      Str.startsWith (Sample.popularDocumentation.drop before_.length) "GET /menus" = true := by
    rw [hbehind]
    exact List.isPrefixOf_iff_prefix.mpr (List.prefix_append ..)
  rw [hstarts, hafter, Bool.not_true, Bool.false_or] at hat
  obtain ⟨c, hc, hcontinues⟩ := (Option.any_eq_true _ _).mp hat
  exact ⟨c, hc, hcontinues⟩

/-- The longer path is taken for the shorter one. -/
theorem not_api_documented :
    ¬∀ [ByteRuntime] [CaseRuntime] (contract : Json) (files : ApiFiles),
      (∃ message, validateApiContract contract files = .ok message) →
        EndpointsDocumented continuesPath contract files := by
  intro h
  let _ := Sample.caseRuntime
  have hpasses : (validateApiContract Sample.menuContract Sample.menuFiles).toBool = true := by
    decide +kernel
  have hdocumented := h Sample.menuContract Sample.menuFiles ?_
  · obtain ⟨before_, after_, htext, hends⟩ := hdocumented Sample.popularDocumentation
      ⟨"GET", "/menus", "MenuController"⟩ ⟨"docs/api-spec.md", rfl, by decide +kernel⟩
      ⟨_, _, "GET", rfl, List.mem_cons_self, rfl, by decide, rfl, rfl⟩
    obtain ⟨c, hc, hcontinues⟩ := Sample.menus_continued before_ after_ htext
    exact nomatch (hends c hc).symm.trans hcontinues
  · cases hresult : validateApiContract Sample.menuContract Sample.menuFiles with
    | ok message => exact ⟨message, rfl⟩
    | error e =>
      rw [hresult] at hpasses
      exact nomatch hpasses

end CoffeeOrder.Harness
