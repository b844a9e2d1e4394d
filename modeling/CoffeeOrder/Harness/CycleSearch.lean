import CoffeeOrder.Harness.Architecture

/-!
# The cycle search

`_find_cycle` shares what is being visited, what was visited and the path to it among all of
its nested calls. A visit without a finding leaves the path as it was, and a finding is the
part of the path behind the node that is met again.
-/

namespace CoffeeOrder.Harness

open Kit Python

variable {edges : List (Str × Str)}

/-- A sequence of edges that comes back to where it starts, through another node. -/
structure IsDirectedCycle (edges : List (Str × Str)) (cycle : List Str) : Prop where
  closed : cycle.head? = cycle.getLast?
  distinct : ∃ a ∈ cycle, ∃ b ∈ cycle, a ≠ b
  follows : cycle.IsChain (GraphEdge edges)

/-- A chain of edges reaches its later members. -/
theorem reaches_of_isChain {a : Str} {rest : List Str}
    (h : (a :: rest).IsChain (GraphEdge edges)) :
    ∀ b ∈ rest, Relation.TransGen (GraphEdge edges) a b := by
  induction rest generalizing a with
  | nil => exact fun b hb => absurd hb List.not_mem_nil
  | cons c rest ih =>
    obtain ⟨hedge, htail⟩ := List.isChain_cons_cons.mp h
    intro b hb
    obtain rfl | hb := List.mem_cons.mp hb
    · exact .single hedge
    · exact (ih htail b hb).head hedge

/-- A directed cycle refutes that there is none. -/
theorem IsDirectedCycle.not_acyclic {cycle : List Str} (h : IsDirectedCycle edges cycle) :
    ¬Acyclic (GraphEdge edges) := by
  obtain ⟨hclosed, ⟨a, ha, b, hb, hne⟩, hfollows⟩ := h
  intro hacyclic
  cases cycle with
  | nil => exact absurd ha List.not_mem_nil
  | cons first rest =>
    cases rest with
    | nil => exact hne ((List.mem_singleton.mp ha).trans (List.mem_singleton.mp hb).symm)
    | cons second rest =>
      have hlast : first ∈ second :: rest := by
        rw [List.head?_cons, List.getLast?_cons_cons] at hclosed
        exact List.mem_of_getLast? hclosed.symm
      exact hacyclic first (reaches_of_isChain hfollows first hlast)

/-- The node may be visited next: what is being visited is the path, and an edge leads from
its end to the node. -/
structure MayVisit (edges : List (Str × Str)) (s : Search) (node : Str) : Prop where
  visiting : s.visiting = s.path.reverse
  nodup : s.path.Nodup
  follows : (s.path ++ [node]).IsChain (GraphEdge edges)
  path_nodes : s.path ⊆ graphNodes edges
  node_mem : node ∈ graphNodes edges

/-- What a search in the given state may find. -/
def Finds (edges : List (Str × Str)) (s : Search) : Option (List Str) × Search → Prop
  | (none, s') => s'.visiting = s.visiting ∧ s'.path = s.path
  | (some cycle, _) => IsDirectedCycle edges cycle

/-- The target of an edge is a node. -/
theorem mem_graphNodes_of_target {a b : Str} (h : GraphEdge edges a b) : b ∈ graphNodes edges := by
  rw [graphNodes, Str.mem_sortedSet, List.mem_flatMap]
  exact ⟨(a, b), List.mem_filter.mpr ⟨h.2, decide_eq_true h.1⟩,
    List.mem_cons_of_mem _ List.mem_cons_self⟩

namespace MayVisit

variable {s s' : Search} {node target : Str}

/-- Whether a node may be visited depends on the path only. -/
theorem of_same (h : MayVisit edges s node) (hvisiting : s'.visiting = s.visiting)
    (hpath : s'.path = s.path) : MayVisit edges s' node where
  visiting := by rw [hvisiting, hpath, h.visiting]
  nodup := hpath ▸ h.nodup
  follows := hpath ▸ h.follows
  path_nodes := hpath ▸ h.path_nodes
  node_mem := h.node_mem

/-- The nodes being visited are those on the path. -/
theorem mem_visiting (h : MayVisit edges s node) : node ∈ s.visiting ↔ node ∈ s.path := by
  rw [h.visiting, List.mem_reverse]

/-- The targets of a node that is entered may be visited next. -/
theorem enter (h : MayVisit edges s node) (hnew : node ∉ s.visiting)
    (hedge : GraphEdge edges node target) :
    MayVisit edges { s with visiting := node :: s.visiting, path := s.path ++ [node] } target where
  visiting := by simp [h.visiting]
  nodup := by
    have hnew' := fun hmem => hnew (h.mem_visiting.mpr hmem)
    exact List.nodup_append.mpr ⟨h.nodup, List.nodup_singleton node, fun a ha b hb =>
      fun heq => hnew' (List.mem_singleton.mp hb ▸ heq ▸ ha)⟩
  follows := by
    refine h.follows.append (.singleton target) fun a ha b hb => ?_
    rw [List.getLast?_concat, Option.mem_some] at ha
    rw [List.head?_cons, Option.mem_some] at hb
    exact ha ▸ hb ▸ hedge
  path_nodes := List.append_subset.mpr
    ⟨h.path_nodes, fun _ hmem => List.mem_singleton.mp hmem ▸ h.node_mem⟩
  node_mem := mem_graphNodes_of_target hedge

/-- The path behind a node that is met again is a cycle. -/
theorem cycle (h : MayVisit edges s node) (hmet : node ∈ s.visiting) :
    IsDirectedCycle edges (s.path.dropWhile (· ≠ node) ++ [node]) := by
  have hsuffix : s.path.dropWhile (· ≠ node) ++ [node] <:+ s.path ++ [node] := by
    obtain ⟨before_, heq⟩ := List.dropWhile_suffix (fun x => decide (x ≠ node)) (l := s.path)
    exact ⟨before_, by rw [← List.append_assoc, heq]⟩
  have hchain := h.follows.suffix hsuffix
  cases hdrop : s.path.dropWhile (· ≠ node) with
  | nil =>
    have hnone := List.dropWhile_eq_nil_iff.mp hdrop node (h.mem_visiting.mp hmet)
    exact absurd rfl (of_decide_eq_true hnone)
  | cons first rest =>
    have hfirst : first = node := by
      have hstop := List.head?_dropWhile_not (fun x => decide (x ≠ node)) s.path
      rw [hdrop] at hstop
      simpa using hstop
    subst hfirst
    rw [hdrop] at hchain
    refine ⟨by rw [List.getLast?_concat, List.cons_append, List.head?_cons], ?_, hchain⟩
    cases rest with
    | nil => exact absurd rfl (List.isChain_cons_cons.mp hchain).1.1
    | cons second rest =>
      exact ⟨first, List.mem_cons_self, second, List.mem_cons_of_mem _ List.mem_cons_self,
        (List.isChain_cons_cons.mp hchain).1.1⟩

/-- The path has no more nodes than the graph. -/
theorem path_length_le (h : MayVisit edges s node) :
    s.path.length ≤ (graphNodes edges).length :=
  (h.nodup.subperm h.path_nodes).length_le

end MayVisit

section Loop

variable {visit : Str → Search → Except OracleError (Option (List Str) × Search)}

/-- What is found from some nodes is a cycle, and otherwise they are done. -/
theorem firstCycle_finds
    (hvisit : ∀ node s, MayVisit edges s node → ∀ found, visit node s = .ok found →
      Finds edges s found)
    {nodes : List Str} {s : Search} (hmay : ∀ node ∈ nodes, MayVisit edges s node) :
    ∀ found, firstCycle visit nodes s = .ok found → Finds edges s found := by
  induction nodes generalizing s with
  | nil =>
    intro found h
    obtain rfl := Except.ok.inj h
    exact ⟨rfl, rfl⟩
  | cons node nodes ih =>
    intro found h
    obtain ⟨⟨cycle, t⟩, hnode, hrest⟩ := Checked.bind_eq_ok.mp h
    have hfirst := hvisit node s (hmay node List.mem_cons_self) _ hnode
    cases cycle with
    | some cycle =>
      obtain rfl := Except.ok.inj hrest
      exact hfirst
    | none =>
      obtain ⟨hvisiting, hpath⟩ := hfirst
      have hmay' : ∀ other ∈ nodes, MayVisit edges t other := fun other hother =>
        (hmay other (List.mem_cons_of_mem _ hother)).of_same hvisiting hpath
      have htail := ih hmay' found hrest
      obtain ⟨cycle, t'⟩ := found
      cases cycle with
      | none => exact ⟨htail.1.trans hvisiting, htail.2.trans hpath⟩
      | some cycle => exact htail

/-- The search from some nodes returns if the visits do. -/
theorem firstCycle_returns
    (hvisit : ∀ node s, MayVisit edges s node → ∀ found, visit node s = .ok found →
      Finds edges s found)
    {nodes : List Str} {s : Search} (hmay : ∀ node ∈ nodes, MayVisit edges s node)
    (hreturns : ∀ node t, t.path = s.path → MayVisit edges t node →
      ∃ found, visit node t = .ok found) :
    ∃ found, firstCycle visit nodes s = .ok found := by
  induction nodes generalizing s with
  | nil => exact ⟨_, rfl⟩
  | cons node nodes ih =>
    have hnode := hmay node List.mem_cons_self
    obtain ⟨⟨cycle, t⟩, hfound⟩ := hreturns node s rfl hnode
    have hfirst := hvisit node s hnode _ hfound
    cases cycle with
    | some cycle => exact ⟨_, Checked.bind_eq_ok.mpr ⟨_, hfound, rfl⟩⟩
    | none =>
      obtain ⟨hvisiting, hpath⟩ := hfirst
      have hmay' : ∀ other ∈ nodes, MayVisit edges t other := fun other hother =>
        (hmay other (List.mem_cons_of_mem _ hother)).of_same hvisiting hpath
      obtain ⟨found, hrest⟩ := ih hmay' fun other t' hpath' =>
        hreturns other t' (hpath'.trans hpath)
      exact ⟨found, Checked.bind_eq_ok.mpr ⟨_, hfound, hrest⟩⟩

end Loop

/-- A visit finds cycles only, and leaves the path as it was if it finds none. -/
theorem visit_finds (depth : ℕ) (node : Str) (s : Search) (hmay : MayVisit edges s node) :
    ∀ found, visit edges depth node s = .ok found → Finds edges s found := by
  induction depth generalizing node s with
  | zero => exact fun found h => nomatch h
  | succ depth ih =>
    intro found h
    unfold visit at h
    split at h
    · rename_i hmet
      obtain rfl := Except.ok.inj h
      exact hmay.cycle hmet
    rename_i hnew
    split at h
    · obtain rfl := Except.ok.inj h
      exact ⟨rfl, rfl⟩
    obtain ⟨⟨cycle, t⟩, htargets, hrest⟩ := Checked.bind_eq_ok.mp h
    have hbelow := firstCycle_finds ih
      (fun target htarget => hmay.enter hnew (mem_graphTargets.mp htarget)) _ htargets
    cases cycle with
    | some cycle =>
      obtain rfl := Except.ok.inj hrest
      exact hbelow
    | none =>
      obtain rfl := Except.ok.inj hrest
      obtain ⟨hvisiting, hpath⟩ := hbelow
      refine ⟨?_, ?_⟩
      · rw [hvisiting, List.erase_cons_head]
      · rw [hpath, List.dropLast_concat]

/-- A visit returns if more calls may be nested than the graph has nodes off the path. -/
theorem visit_returns (depth : ℕ) (node : Str) (s : Search) (hmay : MayVisit edges s node)
    (hdepth : (graphNodes edges).length < depth + s.path.length) :
    ∃ found, visit edges depth node s = .ok found := by
  induction depth generalizing node s with
  | zero =>
    have hle := hmay.path_length_le
    omega
  | succ depth ih =>
    unfold visit
    split
    · exact ⟨_, rfl⟩
    rename_i hnew
    split
    · exact ⟨_, rfl⟩
    have hmay' : ∀ target ∈ graphTargets edges node, MayVisit edges
        { s with visiting := node :: s.visiting, path := s.path ++ [node] } target :=
      fun target htarget => hmay.enter hnew (mem_graphTargets.mp htarget)
    obtain ⟨⟨cycle, t⟩, hfound⟩ := firstCycle_returns (visit_finds depth) hmay'
      fun target t hpath htarget => ih target t htarget (by
        rw [hpath, List.length_append, List.length_singleton]
        omega)
    cases cycle with
    | none => exact ⟨_, Checked.bind_eq_ok.mpr ⟨_, hfound, rfl⟩⟩
    | some cycle => exact ⟨_, Checked.bind_eq_ok.mpr ⟨_, hfound, rfl⟩⟩

/-- Every node may be visited from the empty path. -/
theorem mayVisit_start {node : Str} (h : node ∈ graphNodes edges) :
    MayVisit edges ⟨[], [], []⟩ node :=
  ⟨rfl, List.nodup_nil, .singleton node, List.nil_subset _, h⟩

/-- **The cycle search is sound and complete.** It returns if more calls may be nested than the
graph has nodes, and whatever it returns is a directed cycle, or there is none. -/
theorem findCycle_sound_complete (edges : List (Str × Str)) :
    (∀ depth, (graphNodes edges).length < depth → ∃ found, findCycle depth edges = .ok found) ∧
    ∀ depth found, findCycle depth edges = .ok found →
      (found = none ↔ Acyclic (GraphEdge edges)) ∧
      ∀ cycle, found = some cycle → IsDirectedCycle edges cycle := by
  have hmay : ∀ node ∈ graphNodes edges, MayVisit edges ⟨[], [], []⟩ node :=
    fun node hnode => mayVisit_start hnode
  constructor
  · intro depth hdepth
    obtain ⟨⟨cycle, s⟩, hfound⟩ := firstCycle_returns (visit_finds depth) hmay
      fun node t hpath hnode => visit_returns depth node t hnode (by omega)
    exact ⟨cycle, Checked.bind_eq_ok.mpr ⟨_, hfound, rfl⟩⟩
  · intro depth found h
    have hcycle : ∀ cycle, found = some cycle → IsDirectedCycle edges cycle := by
      rintro cycle rfl
      obtain ⟨⟨found, s⟩, hsearch, hfound⟩ := Checked.bind_eq_ok.mp h
      obtain rfl := Except.ok.inj hfound
      exact firstCycle_finds (visit_finds depth) hmay _ hsearch
    refine ⟨⟨?_, fun hacyclic => ?_⟩, hcycle⟩
    · rintro rfl
      exact acyclic_of_findCycle h
    · cases found with
      | none => rfl
      | some cycle => exact absurd hacyclic (hcycle cycle rfl).not_acyclic

end CoffeeOrder.Harness
