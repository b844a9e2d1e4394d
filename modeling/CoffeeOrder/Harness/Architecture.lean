import CoffeeOrder.Harness.JavaSource
import CoffeeOrder.Harness.Migrations
import CoffeeOrder.Kit.LineScan

/-!
# The architecture oracle

`validate_architecture` reads imports with a regular expression, names their layers and
searches the graph of layers for a cycle.
-/

namespace CoffeeOrder.Harness

open Kit Python

section Oracle

variable [ByteRuntime]

/-- `[\w.]`. -/
def isNameChar (c : CodePoint) : Bool := isWordChar c || c == 0x2e

/-- `^\s*keyword\s+(name);` with the given condition on the name, at the start of a line:
the name and the text behind the match. -/
def declarationAt (keyword : Str) (named : Str → Bool) (text : Str) : Option (Str × Str) :=
  let line : Str := text.dropWhile CodePoint.isSpace
  let behind : Str := line.drop keyword.length
  let rest : Str := behind.dropWhile CodePoint.isSpace
  let name : Str := rest.takeWhile isNameChar
  let tail : Str := rest.dropWhile isNameChar
  if line.startsWith keyword && behind.head?.any CodePoint.isSpace && named name &&
      tail.head? = some 0x3b then
    some (name, tail.drop 1)
  else none

/-- The prefix of the packages of the project. -/
def projectPrefix : Str := "com.example.coffee."

/-- `com\.example\.coffee\.[\w.]+`. -/
def isProjectName (name : Str) : Bool :=
  name.startsWith projectPrefix && projectPrefix.length < name.length

/-- `JAVA_IMPORT_PATTERN.findall(text)`. -/
def javaImports (text : Str) : List Str := findAll (declarationAt "import" isProjectName) 0xa text

/-- The group of `PACKAGE_PATTERN.search(text)`. -/
def packageName (text : Str) : Option Str :=
  (findAll (declarationAt "package" fun name => name ≠ []) 0xa text).head?

/-- `_layer`. -/
def layer (package_name : Str) : Str :=
  if !package_name.startsWith projectPrefix then "external"
  else moduleName (Str.split (package_name.drop projectPrefix.length) 0x2e)

/-- `_layer_matches`. -/
def layerMatches (actual declared : Str) : Bool :=
  actual = declared || actual.startsWith (declared ++ ".")

/-- What `_find_cycle` remembers. -/
structure Search where
  visiting : List Str
  /-- Newest first. -/
  visited : List Str
  path : List Str

/-- The nodes of `graph`. -/
def graphNodes (edges : List (Str × Str)) : List Str :=
  Str.sortedSet ((edges.filter fun e => e.1 ≠ e.2).flatMap fun e => [e.1, e.2])

/-- `sorted(graph.get(node, ()))`. -/
def graphTargets (edges : List (Str × Str)) (node : Str) : List Str :=
  Str.sortedSet ((edges.filter fun e => e.1 ≠ e.2 ∧ e.1 = node).map Prod.snd)

/-- The first cycle that a visit of one of the nodes finds. -/
def firstCycle (visit : Str → Search → Except OracleError (Option (List Str) × Search)) :
    List Str → Search → Except OracleError (Option (List Str) × Search)
  | [], s => .ok (none, s)
  | node :: nodes, s => do
    match ← visit node s with
    | (some cycle, s') => return (some cycle, s')
    | (none, s') => firstCycle visit nodes s'

/-- `visit` of `_find_cycle`, within the given number of nested calls. -/
def visit (edges : List (Str × Str)) :
    ℕ → Str → Search → Except OracleError (Option (List Str) × Search)
  | 0, _, _ =>
    .error (.raised ⟨.other "RecursionError", "maximum recursion depth exceeded in comparison"⟩)
  | depth + 1, node, s => do
    if node ∈ s.visiting then
      return (some (s.path.dropWhile (· ≠ node) ++ [node]), s)
    if node ∈ s.visited then
      return (none, s)
    let entered := { s with visiting := node :: s.visiting, path := s.path ++ [node] }
    match ← firstCycle (visit edges depth) (graphTargets edges node) entered with
    | (some cycle, s') => return (some cycle, s')
    | (none, s') => return (none,
      { visiting := s'.visiting.erase node, visited := node :: s'.visited,
        path := s'.path.dropLast })

/-- `_find_cycle`. -/
def findCycle (depth : ℕ) (edges : List (Str × Str)) : Except OracleError (Option (List Str)) := do
  let (cycle, _) ← firstCycle (visit edges depth) (graphNodes edges) ⟨[], [], []⟩
  return cycle

/-- `value == 1`; a float is known by its `repr`. -/
def isOne : Json → Bool
  | .bool b => b
  | .int n => n = 1
  | .float text _ => text = Str.ofString "1.0"
  | _ => false

/-- `value.get(key)` of a dictionary. -/
def dictGet (value : Json) (key : Str) : Except OracleError Json :=
  (value.get key).mapError .raised

/-- A rule of `forbiddenImports`. -/
def readRule (raw_rule : Json) : Except OracleError (Str × Str) := do
  let .obj _ := raw_rule
    | throw (.OracleFailure "architecture contract의 금지 규칙 형식이 올바르지 않습니다.")
  let source ← dictGet raw_rule "from"
  let target ← dictGet raw_rule "to"
  let (.str source, .str target) := (source, target)
    | throw (.OracleFailure "architecture contract의 from/to는 문자열이어야 합니다.")
  return (source, target)

/-- The checks of the contract. -/
def readRules (contract : Json) : Except OracleError (List (Str × Str)) := do
  let .obj _ := contract
    | throw (.OracleFailure "harness/contracts/architecture.json 최상위 값은 object여야 합니다.")
  let version ← dictGet contract "schemaVersion"
  raiseIf (!isOne version)
    (.OracleFailure "architecture contract schemaVersion은 1이어야 합니다.")
  let source_root ← dictGet contract "sourceRoot"
  raiseIf (!source_root.isStr "src/main/java")
    (.OracleFailure "architecture contract의 sourceRoot가 올바르지 않습니다.")
  let raw_rules ← dictGet contract "forbiddenImports"
  let .arr (raw_rule :: raw_rules) := raw_rules
    | throw (.OracleFailure "architecture contract에 forbiddenImports가 없습니다.")
  (raw_rule :: raw_rules).mapM readRule

/-- What the loop over the sources has found. -/
structure Findings where
  edges : List (Str × Str)
  violations : List Str

/-- The loop body for an import. -/
def recordImport (rules : List (Str × Str)) (path source_layer : Str) (found : Findings)
    (imported_package : Str) : Findings :=
  let target_layer := layer imported_package
  if target_layer = Str.ofString "external" then found
  else
    { edges := (source_layer, target_layer) :: found.edges
      violations := found.violations ++
        (rules.filter fun rule =>
          layerMatches source_layer rule.1 && layerMatches target_layer rule.2).map
            fun _ => path ++ ": " ++ source_layer ++ " -> " ++ target_layer }

/-- The loop body for a source: its path and its text. -/
def recordSource (rules : List (Str × Str)) (found : Findings) (source_file : Str × Str) :
    Except OracleError Findings := do
  let some package := packageName source_file.2
    | throw (.OracleFailure ("package 선언이 없습니다: " ++ source_file.1))
  return (javaImports source_file.2).foldl (recordImport rules source_file.1 (layer package)) found

/-- `validate_architecture`, given the content of the contract and the sources in the
order of their paths, within the given number of nested calls. -/
def validateArchitecture (depth : ℕ) (contract : Json) (source_files : List (Str × Str)) :
    Except OracleError Str := do
  let rules ← readRules contract
  raiseIf (source_files = [])
    (.OracleFailure "architecture oracle이 검사할 Java source를 찾지 못했습니다.")
  let found ← source_files.foldlM (recordSource rules) ⟨[], []⟩
  raiseIf (found.violations ≠ []) (.OracleFailure ("금지된 package 의존성이 발견되었습니다: " ++
    Str.join ", " (found.violations.insertionSort fun a b => a ≤ b)))
  match ← findCycle depth found.edges with
  | some cycle =>
    throw (.OracleFailure ("package 의존성 순환이 발견되었습니다: " ++ Str.join " -> " cycle))
  | none =>
    return "architecture PASS: " ++ Str.ofInt source_files.length ++
      ("개 Java source, 순환·금지 의존성 없음" : Str)

end Oracle

section Cycle

variable {edges : List (Str × Str)}

/-- The edges of `graph`. -/
def GraphEdge (edges : List (Str × Str)) (a b : Str) : Prop := a ≠ b ∧ (a, b) ∈ edges

/-- The targets of a node are where its edges go. -/
theorem mem_graphTargets {a b : Str} : b ∈ graphTargets edges a ↔ GraphEdge edges a b := by
  rw [graphTargets, Str.mem_sortedSet, List.mem_map]
  constructor
  · rintro ⟨e, he, rfl⟩
    obtain ⟨hmem, hkey⟩ := List.mem_filter.mp he
    obtain ⟨hne, rfl⟩ := of_decide_eq_true hkey
    exact ⟨hne, hmem⟩
  · rintro ⟨hne, he⟩
    exact ⟨(a, b), List.mem_filter.mpr ⟨he, decide_eq_true ⟨hne, rfl⟩⟩, rfl⟩

/-- The source of an edge is a node. -/
theorem mem_graphNodes_of_edge {a b : Str} (h : GraphEdge edges a b) : a ∈ graphNodes edges := by
  rw [graphNodes, Str.mem_sortedSet, List.mem_flatMap]
  exact ⟨(a, b), List.mem_filter.mpr ⟨h.2, decide_eq_true h.1⟩, List.mem_cons_self⟩

/-- The search from the first state to the second has visited the nodes. -/
structure Visits (edges : List (Str × Str)) (nodes : List Str) (s s' : Search) : Prop where
  ordered : Ordered (GraphEdge edges) s.visited → Ordered (GraphEdge edges) s'.visited
  kept : s.visited ⊆ s'.visited
  reached : ∀ node ∈ nodes, node ∈ s'.visited

/-- A search without a result has visited all the nodes. -/
theorem firstCycle_visits {visit : Str → Search → Except OracleError (Option (List Str) × Search)}
    (hvisit : ∀ node s s', visit node s = .ok (none, s') → Visits edges [node] s s') :
    ∀ {nodes : List Str} {s s' : Search}, firstCycle visit nodes s = .ok (none, s') →
      Visits edges nodes s s'
  | [], s, s', h => by
    obtain ⟨-, rfl⟩ := Prod.mk.inj (Except.ok.inj h)
    exact ⟨id, List.Subset.refl _, fun _ hnode => nomatch hnode⟩
  | node :: nodes, s, s', h => by
    obtain ⟨⟨cycle, t⟩, hnode, hrest⟩ := Checked.bind_eq_ok.mp h
    cases cycle with
    | some cycle => exact nomatch (Prod.mk.inj (Except.ok.inj hrest)).1
    | none =>
      have hfirst := hvisit node s t hnode
      have htail := firstCycle_visits hvisit hrest
      refine ⟨htail.ordered ∘ hfirst.ordered, List.Subset.trans hfirst.kept htail.kept, ?_⟩
      intro other hother
      obtain rfl | hother := List.mem_cons.mp hother
      · exact htail.kept (hfirst.reached _ List.mem_cons_self)
      · exact htail.reached other hother

/-- A visit that finds no cycle lists the node behind all that it leads to. -/
theorem visit_visits (depth : ℕ) {node : Str} {s s' : Search}
    (h : visit edges depth node s = .ok (none, s')) : Visits edges [node] s s' := by
  induction depth generalizing node s s' with
  | zero => exact nomatch h
  | succ depth ih =>
    unfold visit at h
    split at h
    · exact nomatch (Prod.mk.inj (Except.ok.inj h)).1
    split at h
    · rename_i hvisited
      obtain ⟨-, rfl⟩ := Prod.mk.inj (Except.ok.inj h)
      refine ⟨id, List.Subset.refl _, fun other hother => ?_⟩
      exact List.mem_singleton.mp hother ▸ hvisited
    obtain ⟨⟨cycle, t⟩, htargets, hrest⟩ := Checked.bind_eq_ok.mp h
    cases cycle with
    | some cycle => exact nomatch (Prod.mk.inj (Except.ok.inj hrest)).1
    | none =>
      obtain ⟨-, rfl⟩ := Prod.mk.inj (Except.ok.inj hrest)
      have hbelow := firstCycle_visits (fun node s s' => ih) htargets
      refine ⟨fun hordered => ⟨fun b hb => ?_, hbelow.ordered hordered⟩,
        List.subset_cons_of_subset _ hbelow.kept, fun other hother => ?_⟩
      · exact hbelow.reached b (mem_graphTargets.mpr hb)
      · exact List.mem_cons.mpr (.inl (List.mem_singleton.mp hother))

/-- **The cycle search is complete.** -/
theorem acyclic_of_findCycle {depth : ℕ} (h : findCycle depth edges = .ok none) :
    Acyclic (GraphEdge edges) := by
  obtain ⟨⟨cycle, s⟩, hsearch, hnone⟩ := Checked.bind_eq_ok.mp h
  obtain rfl := Except.ok.inj hnone
  have hvisits := firstCycle_visits (fun _ _ _ => visit_visits depth) hsearch
  intro a hcycle
  obtain ⟨b, hab, -⟩ := Relation.TransGen.head'_iff.mp hcycle
  exact (hvisits.ordered trivial).not_cycle (hvisits.reached a (mem_graphNodes_of_edge hab)) hcycle

end Cycle

section Layers

/-- A dotted name. -/
def dotted (words : List Str) : Str := Str.join "." words

/-- An identifier has no dot. -/
theorem Identifier.dot_notMem (i : Identifier) : (0x2e : CodePoint) ∉ i.name := by
  intro hdot
  have hpart := List.all_eq_true.mp i.parts _ hdot
  exact nomatch hpart

/-- An identifier is not empty. -/
theorem Identifier.ne_nil (i : Identifier) : i.name ≠ [] := by
  intro hnil
  have hstarts := i.starts
  rw [hnil] at hstarts
  exact nomatch hstarts

/-- The words of a dotted name have no dot. -/
theorem DottedName.dot_notMem (name : DottedName) :
    ∀ word ∈ name.words, (0x2e : CodePoint) ∉ word := by
  intro word hword
  simp only [words, List.mem_cons, List.mem_map] at hword
  obtain rfl | ⟨m, -, rfl⟩ := hword
  · exact name.first.dot_notMem
  · exact m.identifier.dot_notMem

/-- The words of a name below the root package, split from its text. -/
theorem split_dotted {words : List Str} (hne : words ≠ [])
    (hwords : ∀ word ∈ words, (0x2e : CodePoint) ∉ word) :
    Str.split (dotted words) 0x2e = words :=
  List.splitOn_intercalate _ hwords hne

/-- A name below the root package begins with the prefix of the project. -/
theorem dotted_root_append {words : List Str} (hne : words ≠ []) :
    dotted (rootPackage ++ words) = projectPrefix ++ dotted words :=
  intercalate_append (List.cons_ne_nil _ _) hne

/-- The layer that the oracle computes from a name below the root package. -/
theorem layer_dotted {words : List Str} (hne : words ≠ [])
    (hwords : ∀ word ∈ words, (0x2e : CodePoint) ∉ word) :
    layer (dotted (rootPackage ++ words)) = moduleName words := by
  have hstarts : Str.startsWith (dotted (rootPackage ++ words)) projectPrefix = true := by
    rw [dotted_root_append hne, Str.startsWith, List.isPrefixOf_iff_prefix]
    exact List.prefix_append _ _
  rw [layer, hstarts, Bool.not_true, if_neg Bool.false_ne_true, dotted_root_append hne,
    List.drop_left, split_dotted hne hwords]

/-- The oracle names the layers of packages as the rules do. -/
theorem layer_package {words : List Str} (hroot : rootPackage <+: words)
    (hwords : ∀ word ∈ words, (0x2e : CodePoint) ∉ word) :
    layer (dotted words) = (Layer.ofPackage words).name := by
  obtain ⟨rest, rfl⟩ := hroot
  by_cases hne : rest = []
  · subst hne
    rfl
  · have hnotRoot : rootPackage ++ rest ≠ rootPackage :=
      fun heq => hne (List.append_right_eq_self.mp heq)
    rw [layer_dotted hne fun word hword => hwords word (List.mem_append_right _ hword),
      Layer.ofPackage, if_neg hnotRoot, List.drop_left]
    rfl

/-- Packages whose types the oracle assigns to the layer of the package. -/
structure HasOwnLayer (words : List Str) : Prop where
  notRoot : words ≠ rootPackage
  notDomain : words ≠ rootPackage ++ [Str.ofString "domain"]
  notInfra : words ≠ rootPackage ++ [Str.ofString "infra"]
  notExternal : ¬rootPackage ++ [Str.ofString "external"] <+: words

/-- Further words do not change the module of a package with its own layer. -/
theorem HasOwnLayer.moduleName_append {rest names : List Str}
    (h : HasOwnLayer (rootPackage ++ rest)) : moduleName (rest ++ names) = moduleName rest := by
  match rest, names with
  | [], _ => exact absurd (List.append_nil _) h.notRoot
  | [first], [] => rfl
  | [first], name :: names =>
    refine if_neg ?_
    rintro (rfl | rfl)
    · exact h.notDomain rfl
    · exact h.notInfra rfl
  | first :: second :: rest, _ => rfl

/-- A module with a layer of its own is not the external one. -/
theorem HasOwnLayer.moduleName_ne_external {rest : List Str}
    (h : HasOwnLayer (rootPackage ++ rest)) : moduleName rest ≠ Str.ofString "external" := by
  match rest with
  | [] => exact absurd (List.append_nil _) h.notRoot
  | [first] =>
    rintro (rfl : first = _)
    exact h.notExternal List.prefix_rfl
  | first :: second :: rest =>
    rw [moduleName]
    split
    · rename_i hlayered
      intro heq
      obtain rfl | rfl := hlayered
      · have hhead : (0x64 : CodePoint) = 0x65 := Option.some.inj (congrArg List.head? heq)
        exact absurd hhead (by decide)
      · have hhead : (0x69 : CodePoint) = 0x65 := Option.some.inj (congrArg List.head? heq)
        exact absurd hhead (by decide)
    · rintro rfl
      exact h.notExternal ⟨second :: rest, rfl⟩

/-- Only the root package and packages without a layer of their own are `external`. -/
theorem HasOwnLayer.name_ne_external {words : List Str} (h : HasOwnLayer words)
    (hroot : rootPackage <+: words) : (Layer.ofPackage words).name ≠ Str.ofString "external" := by
  obtain ⟨rest, rfl⟩ := hroot
  rw [Layer.ofPackage, if_neg h.notRoot, List.drop_left]
  exact h.moduleName_ne_external

end Layers

section Seen

variable [ByteRuntime]

omit [ByteRuntime] in
/-- White space and comments are not empty. -/
theorem Trivia.text_ne_nil : ∀ trivia : Trivia, trivia.text ≠ []
  | .white _ _ => List.cons_ne_nil _ _
  | .lineComment _ _ => List.cons_ne_nil _ _
  | .comment _ _ => List.cons_ne_nil _ _

/-- What stands between two tokens starts with no character of a name. -/
theorem Trivia.not_all_nameChar : ∀ trivia : Trivia, trivia.text.all isNameChar = false
  | .white c h => by
    simp only [List.mem_cons, List.not_mem_nil, or_false] at h
    obtain rfl | rfl | rfl | rfl := h <;> rfl
  | .lineComment _ _ => rfl
  | .comment _ _ => rfl

/-- A gap has characters that names have not. -/
theorem Gap.eq_nil_of_nameChars {gap : Gap} (h : gap.text.all isNameChar = true) : gap = [] := by
  cases gap with
  | nil => rfl
  | cons trivia gap =>
    rw [Gap.text, List.flatMap_cons, List.all_append, trivia.not_all_nameChar] at h
    exact nomatch h

omit [ByteRuntime] in
/-- A gap that is there has a text. -/
theorem Gap.text_ne_nil {gap : Gap} (h : gap ≠ []) : gap.text ≠ [] := by
  obtain ⟨trivia, rest, rfl⟩ := List.exists_cons_of_ne_nil h
  exact List.append_ne_nil_of_left_ne_nil trivia.text_ne_nil _

/-- Members written with characters of names only have no gaps. -/
theorem Member.texts_eq {members : List Member}
    (h : (members.flatMap Member.text).all isNameChar = true) :
    members.flatMap Member.text =
      members.flatMap fun m => (0x2e : CodePoint) :: m.identifier.name := by
  induction members with
  | nil => rfl
  | cons m members ih =>
    rw [List.flatMap_cons, List.all_append, Bool.and_eq_true] at h
    rw [List.flatMap_cons, List.flatMap_cons, ih h.2]
    have hm := h.1
    simp only [Member.text, List.all_append, Bool.and_eq_true] at hm
    obtain ⟨⟨⟨hbefore, -⟩, hafter⟩, -⟩ := hm
    rw [Member.text, Gap.eq_nil_of_nameChars hbefore, Gap.eq_nil_of_nameChars hafter]
    rfl

omit [ByteRuntime] in
/-- A dotted name is its first word and the others with a dot each. -/
theorem dotted_cons (word : Str) (words : List Str) :
    dotted (word :: words) = word ++ words.flatMap fun w => (0x2e : CodePoint) :: w := by
  induction words generalizing word with
  | nil => rfl
  | cons next words ih =>
    rw [List.flatMap_cons, List.cons_append, ← ih next]
    refine (List.intercalate_cons_of_ne_nil (List.cons_ne_nil _ _)).trans ?_
    rw [List.append_assoc]
    rfl

/-- The words of an import. -/
def ImportDeclaration.words (i : ImportDeclaration) : List Str :=
  i.package.words ++ i.names.map fun m => m.identifier.name

/-- An import that `JAVA_IMPORT_PATTERN` is written for: a single-type import on a line of
its own, its name without gaps and of characters that `\w` matches. -/
structure ImportDeclaration.IsPlain (i : ImportDeclaration) : Prop where
  startsLine : (0xa : CodePoint) ∈ i.before.text.rtakeWhile CodePoint.isSpace
  whiteAfter : i.afterImport.1.text.all CodePoint.isSpace = true
  notStatic : i.isStatic = none
  single : i.onDemand = none
  nameChars : i.nameText.all isNameChar = true
  ends : i.beforeEnd = []

omit [ByteRuntime] in
/-- The words of an import are not empty and have no dot. -/
theorem ImportDeclaration.words_spec (i : ImportDeclaration) :
    ∀ word ∈ i.words, word ≠ [] ∧ (0x2e : CodePoint) ∉ word := by
  intro word hword
  have hidentifier : ∃ identifier : Identifier, identifier.name = word := by
    simp only [words, DottedName.words, List.cons_append, List.mem_cons, List.mem_append,
      List.mem_map] at hword
    obtain rfl | ⟨m, -, rfl⟩ | ⟨m, -, rfl⟩ := hword
    · exact ⟨_, rfl⟩
    · exact ⟨_, rfl⟩
    · exact ⟨_, rfl⟩
  obtain ⟨identifier, rfl⟩ := hidentifier
  exact ⟨identifier.ne_nil, identifier.dot_notMem⟩

namespace ImportDeclaration.IsPlain

variable {i : ImportDeclaration}

/-- The name of a plain import is written without gaps. -/
theorem nameText_eq (h : i.IsPlain) : i.nameText = dotted i.words := by
  have hchars := h.nameChars
  rw [nameText, DottedName.text, List.append_assoc, ← List.flatMap_append, List.all_append,
    Bool.and_eq_true] at hchars
  rw [nameText, DottedName.text, List.append_assoc, ← List.flatMap_append,
    Member.texts_eq hchars.2, words, DottedName.words, List.cons_append, dotted_cons,
    ← List.map_append, List.flatMap_map]

/-- A plain import is its keyword, a gap, the name and a semicolon. -/
theorem text_eq (h : i.IsPlain) :
    i.text = Str.ofString "import" ++ (i.afterImport.1.text ++ (i.nameText ++ [0x3b])) := by
  rw [text, h.notStatic, h.single, h.ends]
  simp only [Option.elim_none, List.append_nil, List.append_assoc, Gap.text, List.flatMap_nil]
  rfl

/-- A plain import has a name. -/
theorem names_ne_nil (h : i.IsPlain) : i.names ≠ [] := by
  intro hnil
  have hcount := i.enoughNames
  rw [h.notStatic, h.single, hnil] at hcount
  exact absurd hcount (by decide)

/-- The words of a project import go on below the root package. -/
theorem words_eq (h : i.IsPlain) (hproject : i.IsProject) :
    ∃ rest, rest ≠ [] ∧ i.words = rootPackage ++ rest ∧
      ∀ word ∈ rest, word ≠ [] ∧ (0x2e : CodePoint) ∉ word := by
  obtain ⟨below, hbelow⟩ := hproject
  refine ⟨below ++ i.names.map fun m => m.identifier.name, ?_, ?_, fun word hword => ?_⟩
  · exact List.append_ne_nil_of_right_ne_nil _ (by simpa using h.names_ne_nil)
  · rw [words, ← hbelow, List.append_assoc]
  · have hmem : word ∈ i.words := by
      rw [words, ← hbelow, List.append_assoc]
      exact List.mem_append_right _ hword
    exact i.words_spec word hmem

/-- The name in a plain import of the project is one of the project. -/
theorem isProjectName (h : i.IsPlain) (hproject : i.IsProject) :
    isProjectName i.nameText = true := by
  obtain ⟨rest, hne, hwords, hspec⟩ := h.words_eq hproject
  obtain ⟨first, others, rfl⟩ := List.exists_cons_of_ne_nil hne
  rw [h.nameText_eq, hwords, dotted_root_append hne, Harness.isProjectName, Bool.and_eq_true,
    Str.startsWith, List.isPrefixOf_iff_prefix, decide_eq_true_eq, List.length_append, dotted_cons,
    List.length_append]
  have hfirst := List.length_pos_iff.mpr (hspec first List.mem_cons_self).1
  exact ⟨List.prefix_append _ _, by omega⟩

/-- **What the pattern reads** at a plain import. -/
theorem declarationAt_eq (h : i.IsPlain) (hproject : i.IsProject) {white : Str}
    (hwhite : ∀ c ∈ white, CodePoint.isSpace c = true) (after : Str) :
    declarationAt "import" Harness.isProjectName (white ++ (i.text ++ after)) =
      some (i.nameText, after) := by
  have hline : (white ++ (i.text ++ after)).dropWhile CodePoint.isSpace = i.text ++ after := by
    rw [List.dropWhile_append_of_pos hwhite, h.text_eq]
    rfl
  have hbehind : (i.text ++ after).drop (Str.ofString "import").length =
      i.afterImport.1.text ++ (i.nameText ++ 0x3b :: after) := by
    rw [h.text_eq, List.append_assoc, List.drop_left, List.append_assoc, List.append_assoc]
    rfl
  have hname := h.isProjectName hproject
  have hrest : (i.afterImport.1.text ++ (i.nameText ++ 0x3b :: after)).dropWhile CodePoint.isSpace =
      i.nameText ++ 0x3b :: after := by
    rw [List.dropWhile_append_of_pos (List.all_eq_true.mp h.whiteAfter)]
    obtain ⟨rest, hstarts⟩ := List.isPrefixOf_iff_prefix.mp (Bool.and_eq_true_iff.mp hname).1
    rw [← hstarts]
    rfl
  have hchars := List.all_eq_true.mp h.nameChars
  have hspace : (i.afterImport.1.text ++ (i.nameText ++ 0x3b :: after)).head?.any
      CodePoint.isSpace = true := by
    obtain ⟨c, gap, hgap⟩ := List.exists_cons_of_ne_nil (Gap.text_ne_nil i.afterImport.2)
    rw [hgap]
    exact List.all_eq_true.mp h.whiteAfter c (hgap ▸ List.mem_cons_self)
  have htake : (i.nameText ++ 0x3b :: after).takeWhile isNameChar = i.nameText := by
    rw [List.takeWhile_append_of_pos hchars]
    exact List.append_nil _
  have hdrop : (i.nameText ++ 0x3b :: after).dropWhile isNameChar = 0x3b :: after :=
    List.dropWhile_append_of_pos hchars
  have hkeyword : Str.startsWith (i.text ++ after) (Str.ofString "import") = true := by
    rw [Str.startsWith, List.isPrefixOf_iff_prefix, h.text_eq, List.append_assoc]
    exact List.prefix_append _ _
  rw [declarationAt, hline, hbehind, hrest, htake, hdrop, hkeyword, hspace, hname]
  rfl

end ImportDeclaration.IsPlain

/-- What a match of a declaration consists of. -/
theorem declarationAt_eq_some {keyword name text rest : Str} {named : Str → Bool}
    (h : declarationAt keyword named text = some (name, rest)) :
    ∃ behind : Str, text.dropWhile CodePoint.isSpace = keyword ++ behind ∧ named name = true ∧
      name.all isNameChar = true ∧
      behind.dropWhile CodePoint.isSpace = name ++ 0x3b :: rest := by
  obtain ⟨hmatch, hresult⟩ := Option.ite_none_right_eq_some.mp h
  obtain ⟨rfl, rfl⟩ := Prod.mk.inj (Option.some.inj hresult)
  simp only [Bool.and_eq_true, decide_eq_true_eq] at hmatch
  obtain ⟨⟨⟨hkeyword, -⟩, hnamed⟩, hend⟩ := hmatch
  obtain ⟨behind, hbehind⟩ := List.isPrefixOf_iff_prefix.mp hkeyword
  refine ⟨behind, hbehind.symm, hnamed, List.all_takeWhile, ?_⟩
  rw [← hbehind, List.drop_left] at hend ⊢
  obtain ⟨tail, htail⟩ := List.head?_eq_some_iff.mp hend
  rw [htail, List.drop_one, List.tail_cons, ← htail, List.takeWhile_append_dropWhile]

/-- A match has a keyword at least. -/
theorem length_lt_of_declarationAt {keyword name text rest : Str} {named : Str → Bool}
    (h : declarationAt keyword named text = some (name, rest)) : rest.length < text.length := by
  obtain ⟨behind, hline, -, -, hrest⟩ := declarationAt_eq_some h
  have hskip := List.length_dropWhile_le CodePoint.isSpace text
  have hskip' := List.length_dropWhile_le CodePoint.isSpace behind
  rw [hline, List.length_append] at hskip
  rw [hrest, List.length_append, List.length_cons] at hskip'
  omega

/-- A match from an earlier line start does not swallow a plain import: it is that import, or
ends before its line. -/
theorem declarationAt_keeps {i : ImportDeclaration} (h : i.IsPlain) (hproject : i.IsProject)
    {white : Str} (hwhite : ∀ c ∈ white, CodePoint.isSpace c = true) {after text name rest : Str}
    (hsuffix : 0xa :: (white ++ (i.text ++ after)) <:+ text)
    (hmatch : declarationAt "import" isProjectName text = some (name, rest)) :
    name = i.nameText ∨ 0xa :: (white ++ (i.text ++ after)) <:+ rest := by
  have htarget := h.declarationAt_eq hproject hwhite after
  obtain hline | hline := suffix_dropWhile CodePoint.isSpace hsuffix
  · right
    obtain ⟨behind, htext, hnamed, hchars, hrest⟩ := declarationAt_eq_some hmatch
    rw [htext] at hline
    have hbehind := suffix_of_suffix_append (by decide) hline
    obtain hbehind | hbehind := suffix_dropWhile CodePoint.isSpace hbehind
    · rw [hrest] at hbehind
      have hnewline : (0xa : CodePoint) ∉ name := by
        intro hmem
        exact nomatch List.all_eq_true.mp hchars _ hmem
      have hend : 0xa :: (white ++ (i.text ++ after)) <:+ [0x3b] ++ rest :=
        suffix_of_suffix_append hnewline hbehind
      exact suffix_of_suffix_append (by decide) hend
    · -- The name would start with `import`.
      obtain ⟨tail, hstarts⟩ := List.isPrefixOf_iff_prefix.mp (Bool.and_eq_true_iff.mp hnamed).1
      rw [hrest, ← hstarts, List.dropWhile_cons_of_pos rfl, List.dropWhile_append_of_pos hwhite,
        h.text_eq] at hbehind
      exact nomatch (List.cons.inj hbehind).1
  · left
    have hsame : declarationAt "import" isProjectName text =
        declarationAt "import" isProjectName (white ++ (i.text ++ after)) := by
      rw [declarationAt, hline, List.dropWhile_cons_of_pos rfl]
      rfl
    rw [hsame, htarget] at hmatch
    exact (Prod.mk.inj (Option.some.inj hmatch)).1.symm

/-- **The oracle sees every plain import.** -/
theorem mem_javaImports {s : JavaSource} {i : ImportDeclaration} (hi : i ∈ s.imports)
    (h : i.IsPlain) (hproject : i.IsProject) : i.nameText ∈ javaImports s.text := by
  obtain ⟨earlier, later, himports⟩ := List.append_of_mem hi
  obtain ⟨skipped, white, hgap⟩ := List.append_of_mem h.startsLine
  have hwhite : ∀ c ∈ white, CodePoint.isSpace c = true := by
    intro c hc
    refine List.mem_rtakeWhile_imp (l := i.before.text) ?_
    rw [hgap]
    exact List.mem_append_right _ (List.mem_cons_of_mem _ hc)
  let after : Str := (later.flatMap fun i => i.before.text ++ i.text) ++ s.types
  have hsuffix : 0xa :: (white ++ (i.text ++ after)) <:+ s.text := by
    refine ⟨s.packageText ++ (earlier.flatMap fun i => i.before.text ++ i.text) ++
      i.before.text.rdropWhile CodePoint.isSpace ++ skipped, ?_⟩
    have hbefore : i.before.text = i.before.text.rdropWhile CodePoint.isSpace ++
        (skipped ++ 0xa :: white) := by
      rw [← hgap, List.rdropWhile_append_rtakeWhile]
    rw [JavaSource.text, himports, List.flatMap_append, List.flatMap_cons]
    nth_rewrite 2 [hbefore]
    simp only [after, List.append_assoc, List.cons_append]
  exact mem_findAll (h.declarationAt_eq hproject hwhite after)
    (fun _ _ _ => length_lt_of_declarationAt)
    (fun _ _ _ hkept => declarationAt_keeps h hproject hwhite hkept) hsuffix

/-- An import that the oracle assigns to its layers: a plain one, of a package with a layer of
its own, in a source whose package declaration the oracle finds. -/
structure Seen (s : JavaSource) (i : ImportDeclaration) : Prop where
  plain : i.IsPlain
  target : HasOwnLayer i.package.words
  source : packageName s.text = some (dotted s.package.words)

/-- The layers that the oracle takes from a seen import are those of its packages. -/
theorem Seen.layer_eq {s : JavaSource} {i : ImportDeclaration} (h : Seen s i)
    (hproject : i.IsProject) : layer i.nameText = (Layer.ofPackage i.package.words).name := by
  have hspec := i.words_spec
  obtain ⟨below, hbelow⟩ := hproject
  have htarget := h.target
  rw [ImportDeclaration.words, ← hbelow, List.append_assoc] at hspec
  rw [← hbelow] at htarget
  have hne : below ≠ [] := fun hnil => htarget.notRoot (by rw [hnil, List.append_nil])
  rw [h.plain.nameText_eq, ImportDeclaration.words, ← hbelow, List.append_assoc,
    layer_dotted (List.append_ne_nil_of_left_ne_nil hne _)
      fun word hword => (hspec word (List.mem_append_right _ hword)).2,
    htarget.moduleName_append, Layer.ofPackage, if_neg htarget.notRoot, List.drop_left]
  rfl

end Seen

section Findings

variable {rules : List (Str × Str)}

/-- The loops only add edges and violations. -/
structure Findings.Extends (found found' : Findings) : Prop where
  edges : found.edges ⊆ found'.edges
  violations : found'.violations = [] → found.violations = []

/-- The import from the first layer is recorded. -/
def Findings.Records (found : Findings) (rules : List (Str × Str)) (source_layer imported : Str) :
    Prop :=
  layer imported ≠ Str.ofString "external" →
    (source_layer, layer imported) ∈ found.edges ∧
      (found.violations = [] → ∀ rule ∈ rules,
        ¬(layerMatches source_layer rule.1 = true ∧ layerMatches (layer imported) rule.2 = true))

/-- What was found once stays found. -/
theorem Findings.Records.mono {found found' : Findings} {source_layer imported : Str}
    (h : found.Records rules source_layer imported) (hext : found.Extends found') :
    found'.Records rules source_layer imported :=
  fun hproject => ⟨hext.edges (h hproject).1, fun hnone => (h hproject).2 (hext.violations hnone)⟩

/-- Recording an import forgets nothing. -/
theorem recordImport_extends (path source_layer : Str) (found : Findings) (imported : Str) :
    found.Extends (recordImport rules path source_layer found imported) := by
  by_cases hexternal : layer imported = Str.ofString "external"
  · rw [recordImport, if_pos hexternal]
    exact ⟨List.Subset.refl _, id⟩
  · rw [recordImport, if_neg hexternal]
    exact ⟨List.subset_cons_self _ _, fun hnone => (List.append_eq_nil_iff.mp hnone).1⟩

/-- The import is recorded. -/
theorem recordImport_records (path source_layer : Str) (found : Findings) (imported : Str) :
    (recordImport rules path source_layer found imported).Records rules source_layer imported := by
  intro hproject
  rw [recordImport, if_neg hproject]
  refine ⟨List.mem_cons_self, fun hnone rule hrule hmatches => ?_⟩
  have hfilter := List.map_eq_nil_iff.mp (List.append_eq_nil_iff.mp hnone).2
  exact List.filter_eq_nil_iff.mp hfilter rule hrule (Bool.and_eq_true_iff.mpr hmatches)

/-- One source: all its imports are recorded. -/
theorem recordImports_spec (path source_layer : Str) (imports : List Str) (found : Findings) :
    found.Extends (imports.foldl (recordImport rules path source_layer) found) ∧
      ∀ imported ∈ imports, (imports.foldl (recordImport rules path source_layer) found).Records
        rules source_layer imported := by
  induction imports generalizing found with
  | nil => exact ⟨⟨List.Subset.refl _, id⟩, fun _ himported => nomatch himported⟩
  | cons first imports ih =>
    have hfirst : found.Extends (recordImport rules path source_layer found first) :=
      recordImport_extends path source_layer found first
    obtain ⟨hext, hrecords⟩ := ih (recordImport rules path source_layer found first)
    refine ⟨⟨List.Subset.trans hfirst.edges hext.edges, hfirst.violations ∘ hext.violations⟩, ?_⟩
    intro imported himported
    obtain rfl | himported := List.mem_cons.mp himported
    · exact (recordImport_records path source_layer found imported).mono hext
    · exact hrecords imported himported

/-- All sources. -/
theorem recordSources_spec [ByteRuntime] {files : List (Str × Str)} {found found' : Findings}
    (h : files.foldlM (recordSource rules) found = .ok found') :
    found.Extends found' ∧ ∀ file ∈ files, ∀ package, packageName file.2 = some package →
      ∀ imported ∈ javaImports file.2, found'.Records rules (layer package) imported := by
  induction files generalizing found with
  | nil =>
    obtain rfl := Checked.pure_eq_ok.mp h
    exact ⟨⟨List.Subset.refl _, id⟩, fun _ hfile => nomatch hfile⟩
  | cons file files ih =>
    rw [List.foldlM_cons, Checked.bind_eq_ok] at h
    obtain ⟨next, hfile, hfiles⟩ := h
    obtain ⟨hext, hrecords⟩ := ih hfiles
    unfold recordSource at hfile
    cases hpackage : packageName file.2 with
    | none =>
      rw [hpackage] at hfile
      exact nomatch hfile
    | some package =>
      rw [hpackage] at hfile
      obtain rfl := Except.ok.inj hfile
      obtain ⟨hfirst, hfound⟩ := @recordImports_spec rules file.1 (layer package)
        (javaImports file.2) found
      refine ⟨⟨List.Subset.trans hfirst.edges hext.edges, hfirst.violations ∘ hext.violations⟩, ?_⟩
      intro other hother package' hpackage' imported himported
      obtain rfl | hother := List.mem_cons.mp hother
      · rw [hpackage] at hpackage'
        obtain rfl := Option.some.inj hpackage'
        exact (hfound imported himported).mono hext
      · exact hrecords other hother package' hpackage' imported himported

end Findings

section Complete

/-- A rule of the contract is among the rules that the oracle reads. -/
theorem mem_of_readRules {contract : Json} {rules : List (Str × Str)}
    (h : readRules contract = .ok rules) {source target : Str}
    (hforbids : Forbids contract source target) : (source, target) ∈ rules := by
  obtain ⟨raw_rules, rule, hraw, hrule, hsource, htarget⟩ := hforbids
  unfold readRules at h
  split at h
  · obtain ⟨_, -, h⟩ := Checked.bind_eq_ok.mp h
    obtain ⟨-, h⟩ := Checked.raiseIf_bind_eq_ok.mp h
    obtain ⟨_, -, h⟩ := Checked.bind_eq_ok.mp h
    obtain ⟨-, h⟩ := Checked.raiseIf_bind_eq_ok.mp h
    rw [dictGet, hraw] at h
    cases raw_rules with
    | nil => exact nomatch hrule
    | cons first others =>
      obtain ⟨read, hmem, hok⟩ := Checked.exists_of_mapM_eq_ok h hrule
      have hread : readRule rule = .ok (source, target) := by
        cases rule with
        | obj entries => rw [readRule, dictGet, dictGet, hsource, htarget]; rfl
        | _ => exact nomatch hsource
      rw [hread] at hok
      exact Except.ok.inj hok ▸ hmem
  · exact nomatch h

/-- A layer matches its own name and that of a layer above it. -/
theorem layerMatches_iff {l : Layer} {declared : Str} :
    layerMatches l.name declared = true ↔ l.Matches declared := by
  rw [layerMatches, Bool.or_eq_true, decide_eq_true_eq, Str.startsWith,
    List.isPrefixOf_iff_prefix]
  rfl

variable [ByteRuntime] {depth : ℕ} {contract : Json} {sources : List (Str × JavaSource)}
  {text : Str}

/-- If the oracle passes, the seen imports obey the rules and form no cycle. -/
theorem seen_holds
    (hpass : validateArchitecture depth contract (sources.map fun s => (s.1, s.2.text)) =
      .ok text) :
    Respects (sources.map Prod.snd) Seen contract ∧
      Acyclic fun a b => a ≠ b ∧ Imports (sources.map Prod.snd) Seen a b := by
  obtain ⟨rules, hrules, hpass⟩ := Checked.bind_eq_ok.mp hpass
  obtain ⟨-, hpass⟩ := Checked.raiseIf_bind_eq_ok.mp hpass
  obtain ⟨found, hfound, hpass⟩ := Checked.bind_eq_ok.mp hpass
  obtain ⟨hviolations, hpass⟩ := Checked.raiseIf_bind_eq_ok.mp hpass
  obtain ⟨cycle, hcycle, hpass⟩ := Checked.bind_eq_ok.mp hpass
  rw [not_not] at hviolations
  have hrecords : ∀ a b, Imports (sources.map Prod.snd) Seen a b →
      b.name ≠ Str.ofString "external" ∧ (a.name, b.name) ∈ found.edges ∧
        ∀ rule ∈ rules, ¬(a.Matches rule.1 ∧ b.Matches rule.2) := by
    rintro a b ⟨s, hs, i, hi, hproject, hseen, rfl, rfl⟩
    obtain ⟨source, hsource, rfl⟩ := List.mem_map.mp hs
    have hrecord := (recordSources_spec hfound).2 _ (List.mem_map_of_mem hsource) _ hseen.source _
      (mem_javaImports hi hseen.plain hproject)
    have hname : (Layer.ofPackage i.package.words).name ≠ Str.ofString "external" :=
      hseen.target.name_ne_external hproject
    rw [Findings.Records, hseen.layer_eq hproject,
      layer_package source.2.belowRoot source.2.package.dot_notMem] at hrecord
    obtain ⟨hedge, hobeys⟩ := hrecord hname
    refine ⟨hname, hedge, fun rule hrule => ?_⟩
    rw [← layerMatches_iff, ← layerMatches_iff]
    exact hobeys hviolations rule hrule
  constructor
  · intro source target hforbids a b himports
    exact (hrecords a b himports).2.2 _ (mem_of_readRules hrules hforbids)
  · cases cycle with
    | some cycle => exact nomatch hpass
    | none =>
      refine (acyclic_of_findCycle hcycle).comap Layer.name ?_
      rintro a b ⟨hne, himports⟩
      obtain ⟨hname, hedge, -⟩ := hrecords a b himports
      refine ⟨fun heq => ?_, hedge⟩
      cases a with
      | root => exact hname heq.symm
      | named a =>
        cases b with
        | root => exact hname rfl
        | named b => exact hne (congrArg Layer.named heq)

/-- **What the architecture oracle guarantees.** If it passes, the contract holds if and only
if it holds of the imports that the oracle does not see: none is forbidden, and none lies on
a cycle. -/
theorem architecture_holds_iff
    (hpass : validateArchitecture depth contract (sources.map fun s => (s.1, s.2.text)) =
      .ok text) :
    ArchitectureHolds (sources.map Prod.snd) contract ↔
      Respects (sources.map Prod.snd) (fun s i => ¬Seen s i) contract ∧
        ∀ a b, Imports (sources.map Prod.snd) (fun s i => ¬Seen s i) a b →
          ¬OnCycle (LayerEdge (sources.map Prod.snd)) a b := by
  obtain ⟨hrespects, hacyclic⟩ := seen_holds hpass
  have hsplit : ∀ a b, Imports (sources.map Prod.snd) (fun _ _ => True) a b →
      Imports (sources.map Prod.snd) Seen a b ∨
        Imports (sources.map Prod.snd) (fun s i => ¬Seen s i) a b := by
    rintro a b ⟨s, hs, i, hi, hproject, -, hlayers⟩
    by_cases hseen : Seen s i
    · exact .inl ⟨s, hs, i, hi, hproject, hseen, hlayers⟩
    · exact .inr ⟨s, hs, i, hi, hproject, hseen, hlayers⟩
  have hweaken : ∀ {kind : JavaSource → ImportDeclaration → Prop} {a b : Layer},
      Imports (sources.map Prod.snd) kind a b →
        Imports (sources.map Prod.snd) (fun _ _ => True) a b :=
    fun ⟨s, hs, i, hi, hproject, _, hlayers⟩ => ⟨s, hs, i, hi, hproject, trivial, hlayers⟩
  have hcycles := acyclic_iff_of_split (r := LayerEdge (sources.map Prod.snd))
    (fun a b hedge => (hsplit a b hedge.2).imp_left fun hseen => ⟨hedge.1, hseen⟩) hacyclic
  constructor
  · rintro ⟨hall, hnone⟩
    exact ⟨fun source target hforbids a b himports =>
      hall source target hforbids a b (hweaken himports), hcycles.mp hnone⟩
  · rintro ⟨hunseen, hnone⟩
    refine ⟨fun source target hforbids a b himports => ?_, hcycles.mpr hnone⟩
    obtain hseen | hnotSeen := hsplit a b himports
    · exact hrespects source target hforbids a b hseen
    · exact hunseen source target hforbids a b hnotSeen

end Complete

namespace Sample

/-- `com.example.coffee` with further words, without gaps. -/
def projectPackage (words : List Identifier) : DottedName where
  first := ⟨"com", by decide, by decide, by decide⟩
  rest :=
    (⟨"example", by decide, by decide, by decide⟩ :: ⟨"coffee", by decide, by decide, by decide⟩ ::
      words).map fun word => ⟨[], [], word⟩

/-- The words of a layer. -/
def orderWords : List Identifier :=
  [⟨"domain", by decide, by decide, by decide⟩, ⟨"order", by decide, by decide, by decide⟩]

/-- The words of another layer. -/
def rankingWords : List Identifier :=
  [⟨"domain", by decide, by decide, by decide⟩, ⟨"ranking", by decide, by decide, by decide⟩]

/-- The words of a third layer. -/
def menuWords : List Identifier :=
  [⟨"domain", by decide, by decide, by decide⟩, ⟨"menu", by decide, by decide, by decide⟩]

/-- A space. -/
def space : Trivia := .white 0x20 (by decide)

/-- A line end. -/
def newline : Trivia := .white 0xa (by decide)

/-- `import com.example.coffee.domain.ranking.*;`, after an empty line. -/
def rankingImport : ImportDeclaration where
  before := [newline, newline]
  afterImport := ⟨[space], by decide⟩
  isStatic := none
  package := projectPackage rankingWords
  names := []
  onDemand := some ([], [])
  beforeEnd := []
  enoughNames := by decide

/-- `import com.example.coffee.domain.menu.Menu;`, on a new line. -/
def menuImport : ImportDeclaration where
  before := [newline]
  afterImport := ⟨[space], by decide⟩
  isStatic := none
  package := projectPackage menuWords
  names := [⟨[], [], ⟨"Menu", by decide, by decide, by decide⟩⟩]
  onDemand := none
  beforeEnd := []
  enoughNames := by decide

/-- A source of `domain.order` with the given imports. -/
def orderSource (imports : List ImportDeclaration) : JavaSource where
  before := []
  afterPackage := ⟨[space], by decide⟩
  package := projectPackage orderWords
  beforeEnd := []
  imports := imports
  types := "\n\nclass Bad {}\n"
  belowRoot := by decide

/-- The contract of the repository, of its first rule. -/
def architectureContract : Json :=
  .obj [("schemaVersion", .int 1), ("sourceRoot", .str "src/main/java"),
    ("forbiddenImports",
      .arr [.obj [("from", .str "domain.order"), ("to", .str "domain.ranking")]])]

/-- The forbidden on-demand import passes the oracle. -/
theorem rankingImport_passes :
    validateArchitecture 900 architectureContract
      [("src/main/java/com/example/coffee/domain/order/Bad.java",
        (orderSource [rankingImport]).text)] =
      .ok "architecture PASS: 1개 Java source, 순환·금지 의존성 없음" := by
  rfl

/-- The allowed import passes as well. -/
theorem menuImport_passes :
    validateArchitecture 900 architectureContract
      [("src/main/java/com/example/coffee/domain/order/Bad.java",
        (orderSource [menuImport]).text)] =
      .ok "architecture PASS: 1개 Java source, 순환·금지 의존성 없음" := by
  rfl

end Sample

/-- The oracle passes a forbidden on-demand import. -/
theorem not_architecture_holds :
    ¬∀ (depth : ℕ) (contract : Json) (sources : List (Str × JavaSource)) (text : Str),
      validateArchitecture depth contract (sources.map fun s => (s.1, s.2.text)) = .ok text →
        ArchitectureHolds (sources.map Prod.snd) contract := by
  intro h
  have hholds := h 900 Sample.architectureContract
    [("src/main/java/com/example/coffee/domain/order/Bad.java",
      Sample.orderSource [Sample.rankingImport])] _ Sample.rankingImport_passes
  refine hholds.respects "domain.order" "domain.ranking" ⟨_, _, rfl, List.mem_cons_self, rfl, rfl⟩
    (.named "domain.order") (.named "domain.ranking") ?_ ⟨.inl rfl, .inl rfl⟩
  exact ⟨_, List.mem_cons_self, _, List.mem_cons_self, ⟨_, rfl⟩, trivial, by decide, by decide⟩

/-- The allowed import: the oracle passes, and the contract holds as far as it does of the
imports that the oracle does not see. -/
theorem architecture_holds_iff_menuImport :
    ∃ (sources : List (Str × JavaSource)) (text : Str),
      validateArchitecture 900 Sample.architectureContract
        (sources.map fun s => (s.1, s.2.text)) = .ok text ∧
      (ArchitectureHolds (sources.map Prod.snd) Sample.architectureContract ↔
        Respects (sources.map Prod.snd) (fun s i => ¬Seen s i) Sample.architectureContract ∧
          ∀ a b, Imports (sources.map Prod.snd) (fun s i => ¬Seen s i) a b →
            ¬OnCycle (LayerEdge (sources.map Prod.snd)) a b) :=
  ⟨[("src/main/java/com/example/coffee/domain/order/Bad.java",
      Sample.orderSource [Sample.menuImport])], _, Sample.menuImport_passes,
    architecture_holds_iff Sample.menuImport_passes⟩

end CoffeeOrder.Harness
