import Mathlib.Data.String.Basic
import SchemaDesign.Proofs.Graph.Order
import SchemaDesign.Model.Basic

/-!
# The dependency graph of a schema

`Schema.dependencyGraph` folds the tables into a name-keyed adjacency list: every table's name
becomes a node, and every identifying relationship whose provider exists becomes an edge from
the provider's name to the holder's name. Nodes and dependents are kept sorted by inserting
each name in place.

Main statements:
- `dependencyGraph_shape`: the result has the shape Kahn's algorithm needs, since sorted
  insertion never repeats a name;
- `precedes_dependencyGraph_iff`: its edges are exactly `Schema.ProvidesByName`;
- `identifyingOrder_cycle_eq_none_iff`: the order report names no cycle exactly when
  `ProvidesByName` has none.
-/

namespace SchemaDesign

/-- An entry of the adjacency list lists `b` as a dependent of `a`. -/
def HasEdge (graph : List (String × List String)) (a b : String) : Prop :=
  ∃ e ∈ graph, e.1 = a ∧ b ∈ e.2

/-- What the construction keeps: nodes and dependents in increasing order, and every
dependent a node. -/
structure SortedGraph (graph : List (String × List String)) : Prop where
  nodes_sorted : (nodesOf graph).Pairwise (· < ·)
  dependents_sorted : ∀ e ∈ graph, e.2.Pairwise (· < ·)
  dependents_mem : ∀ e ∈ graph, ∀ b ∈ e.2, b ∈ nodesOf graph

theorem SortedGraph.shape {graph : List (String × List String)} (h : SortedGraph graph) :
    GraphShape graph where
  nodes_nodup := h.nodes_sorted.imp ne_of_lt
  dependents_nodup e he := (h.dependents_sorted e he).imp ne_of_lt
  dependents_mem := h.dependents_mem

/-! ## Sorted insertion -/

theorem pairwise_insertName {n : String} {l : List String} (hl : l.Pairwise (· < ·)) :
    (insertName n l).Pairwise (· < ·) := by
  induction l with
  | nil => simp [insertName]
  | cons m ms ih =>
    have hm := List.pairwise_cons.1 hl
    unfold insertName
    split_ifs with hlt heq
    · refine List.pairwise_cons.2 ⟨?_, hl⟩
      intro b hb
      rcases List.mem_cons.1 hb with rfl | hb
      · exact hlt
      · exact lt_trans hlt (hm.1 b hb)
    · exact hl
    · -- the new name goes after `m`
      have hmn : m < n := lt_of_le_of_ne (not_lt.1 hlt) (Ne.symm heq)
      refine List.pairwise_cons.2 ⟨?_, ih hm.2⟩
      intro b hb
      rcases mem_insertName.1 hb with rfl | hb
      · exact hmn
      · exact hm.1 b hb

theorem nodesOf_addNode (n : String) (graph : List (String × List String)) :
    nodesOf (addNode n graph) = insertName n (nodesOf graph) := by
  induction graph with
  | nil => rfl
  | cons e es ih =>
    simp only [addNode, nodesOf, List.map_cons, insertName] at ih ⊢
    split_ifs <;> simp [ih]

theorem mem_addNode {n : String} {graph : List (String × List String)}
    {e : String × List String} (he : e ∈ addNode n graph) : e ∈ graph ∨ e = (n, []) := by
  induction graph with
  | nil => simpa [addNode] using he
  | cons x xs ih =>
    unfold addNode at he
    split_ifs at he
    · simpa [or_comm] using he
    · exact .inl he
    · rcases List.mem_cons.1 he with rfl | he
      · exact .inl List.mem_cons_self
      · exact (ih he).imp_left (List.mem_cons_of_mem x)

theorem subset_addNode (n : String) (graph : List (String × List String)) :
    graph ⊆ addNode n graph := by
  induction graph with
  | nil => simp
  | cons x xs ih =>
    unfold addNode
    split_ifs
    · exact List.subset_cons_of_subset _ (List.Subset.refl _)
    · exact List.Subset.refl _
    · exact List.cons_subset_cons x ih

theorem exists_addNode_entry (n : String) (graph : List (String × List String)) :
    ∃ e ∈ addNode n graph, e.1 = n :=
  mem_nodesOf.1 (by rw [nodesOf_addNode]; exact mem_insertName.2 (.inl rfl))

theorem nodesOf_addEdge (p h : String) (graph : List (String × List String)) :
    nodesOf (addEdge p h graph) = insertName p (nodesOf graph) := by
  rw [← nodesOf_addNode]
  simp only [addEdge, nodesOf, List.map_map]
  apply List.map_congr_left
  intro e _
  simp only [Function.comp_apply]
  split_ifs <;> rfl

/-! ## Building the graph -/

section Build

variable {graph : List (String × List String)}

theorem hasEdge_addNode (n : String) {a b : String} :
    HasEdge (addNode n graph) a b ↔ HasEdge graph a b := by
  constructor
  · rintro ⟨e, he, rfl, hb⟩
    rcases mem_addNode he with he | rfl
    · exact ⟨e, he, rfl, hb⟩
    · simp at hb
  · rintro ⟨e, he, rfl, hb⟩
    exact ⟨e, subset_addNode n graph he, rfl, hb⟩

theorem hasEdge_addEdge (p h : String) {a b : String} :
    HasEdge (addEdge p h graph) a b ↔ HasEdge graph a b ∨ (a = p ∧ b = h) := by
  simp only [HasEdge, addEdge, List.mem_map]
  constructor
  · rintro ⟨_, ⟨e, he, rfl⟩, rfl, hb⟩
    split_ifs at hb ⊢ with hp
    · rcases mem_insertName.1 hb with rfl | hb
      · exact .inr ⟨hp, rfl⟩
      · exact .inl ((hasEdge_addNode p).1 ⟨e, he, rfl, hb⟩)
    · exact .inl ((hasEdge_addNode p).1 ⟨e, he, rfl, hb⟩)
  · rintro (⟨e, he, rfl, hb⟩ | ⟨rfl, rfl⟩)
    · refine ⟨_, ⟨e, subset_addNode p graph he, rfl⟩, ?_⟩
      split_ifs <;> simp [hb]
    · obtain ⟨e, he, hep⟩ := exists_addNode_entry a graph
      exact ⟨_, ⟨e, he, rfl⟩, by simp [hep]⟩

theorem SortedGraph.addNode (hg : SortedGraph graph) (n : String) :
    SortedGraph (addNode n graph) where
  nodes_sorted := by rw [nodesOf_addNode]; exact pairwise_insertName hg.nodes_sorted
  dependents_sorted e he := by
    rcases mem_addNode he with he | rfl
    · exact hg.dependents_sorted e he
    · simp
  dependents_mem e he b hb := by
    rw [nodesOf_addNode, mem_insertName]
    rcases mem_addNode he with he | rfl
    · exact .inr (hg.dependents_mem e he b hb)
    · simp at hb

/-- An edge into a node keeps the shape. -/
theorem SortedGraph.addEdge (hg : SortedGraph graph) (p : String) {h : String}
    (hh : h ∈ nodesOf graph) : SortedGraph (addEdge p h graph) where
  nodes_sorted := by rw [nodesOf_addEdge]; exact pairwise_insertName hg.nodes_sorted
  dependents_sorted e' he' := by
    obtain ⟨e, he, rfl⟩ := List.mem_map.1 he'
    have := (hg.addNode p).dependents_sorted e he
    split_ifs
    · exact pairwise_insertName this
    · exact this
  dependents_mem e' he' b hb := by
    rw [nodesOf_addEdge, mem_insertName]
    obtain ⟨e, he, rfl⟩ := List.mem_map.1 he'
    have hb' : b = h ∨ b ∈ e.2 := by
      split_ifs at hb
      · exact mem_insertName.1 hb
      · exact .inr hb
    rcases hb' with rfl | hb
    · exact .inr hh
    · rcases mem_addNode he with he | rfl
      · exact .inr (hg.dependents_mem e he b hb)
      · simp at hb

end Build

namespace Schema

/-- `a` provides for `b` by name: a table named `b` holds an identifying relationship whose
provider exists and is named `a`. -/
def ProvidesByName (s : Schema) (a b : String) : Prop :=
  ∃ t ∈ s.tables, t.name = b ∧ ∃ r ∈ t.relationships, r.isIdentifying ∧
    ∃ p, s.table? r.pkTableId = some p ∧ p.name = a

/-- The edge a relationship of `t` adds: from its provider, when it is identifying and the
provider exists. -/
def addRelationshipEdge (s : Schema) (t : Table) (graph : List (String × List String))
    (r : Relationship) : List (String × List String) :=
  if r.isIdentifying then
    match s.table? r.pkTableId with
    | some provider => addEdge provider.name t.name graph
    | none => graph
  else graph

/-- The node of a table and the edges of its relationships. -/
def addTableEdges (s : Schema) (graph : List (String × List String)) (t : Table) :
    List (String × List String) :=
  t.relationships.foldl (s.addRelationshipEdge t) (addNode t.name graph)

theorem dependencyGraph_eq (s : Schema) :
    s.dependencyGraph = s.tables.foldl s.addTableEdges [] := rfl

section Edges

variable (s : Schema) (t : Table)

theorem hasEdge_addRelationshipEdge (graph : List (String × List String)) (r : Relationship)
    {a b : String} :
    HasEdge (s.addRelationshipEdge t graph r) a b ↔ HasEdge graph a b ∨
      (b = t.name ∧ r.isIdentifying ∧ ∃ p, s.table? r.pkTableId = some p ∧ p.name = a) := by
  unfold addRelationshipEdge
  by_cases hr : r.isIdentifying
  · cases hp : s.table? r.pkTableId with
    | none => simp [hr]
    | some p =>
      simp only [hr, if_true, hasEdge_addEdge, Option.some.injEq, exists_eq_left', true_and]
      constructor
      · rintro (h | ⟨rfl, rfl⟩)
        · exact .inl h
        · exact .inr ⟨rfl, rfl⟩
      · rintro (h | ⟨rfl, rfl⟩)
        · exact .inl h
        · exact .inr ⟨rfl, rfl⟩
  · simp [hr]

theorem hasEdge_foldl_addRelationshipEdge :
    ∀ (rs : List Relationship) (graph : List (String × List String)) {a b : String},
      HasEdge (rs.foldl (s.addRelationshipEdge t) graph) a b ↔ HasEdge graph a b ∨
        (b = t.name ∧ ∃ r ∈ rs, r.isIdentifying ∧ ∃ p, s.table? r.pkTableId = some p ∧ p.name = a)
  | [], graph, a, b => by simp
  | r :: rs, graph, a, b => by
    rw [List.foldl_cons, hasEdge_foldl_addRelationshipEdge rs, hasEdge_addRelationshipEdge,
      List.exists_mem_cons_iff, and_or_left, or_assoc]

theorem hasEdge_addTableEdges (graph : List (String × List String)) {a b : String} :
    HasEdge (s.addTableEdges graph t) a b ↔ HasEdge graph a b ∨
      (b = t.name ∧ ∃ r ∈ t.relationships, r.isIdentifying ∧
        ∃ p, s.table? r.pkTableId = some p ∧ p.name = a) := by
  rw [addTableEdges, hasEdge_foldl_addRelationshipEdge, hasEdge_addNode]

theorem hasEdge_foldl_addTableEdges :
    ∀ (ts : List Table) (graph : List (String × List String)) {a b : String},
      HasEdge (ts.foldl s.addTableEdges graph) a b ↔ HasEdge graph a b ∨
        ∃ t ∈ ts, t.name = b ∧ ∃ r ∈ t.relationships, r.isIdentifying ∧
          ∃ p, s.table? r.pkTableId = some p ∧ p.name = a
  | [], graph, a, b => by simp
  | t :: ts, graph, a, b => by
    rw [List.foldl_cons, hasEdge_foldl_addTableEdges ts, hasEdge_addTableEdges,
      List.exists_mem_cons_iff]
    constructor
    · rintro ((h | ⟨rfl, h⟩) | h)
      · exact .inl h
      · exact .inr (.inl ⟨rfl, h⟩)
      · exact .inr (.inr h)
    · rintro (h | ⟨hb, h⟩ | h)
      · exact .inl (.inl h)
      · exact .inl (.inr ⟨hb.symm, h⟩)
      · exact .inr h

theorem mem_nodesOf_addRelationshipEdge (graph : List (String × List String)) (r : Relationship)
    {n : String} :
    n ∈ nodesOf (s.addRelationshipEdge t graph r) ↔ n ∈ nodesOf graph ∨
      (r.isIdentifying ∧ ∃ p, s.table? r.pkTableId = some p ∧ p.name = n) := by
  unfold addRelationshipEdge
  by_cases hr : r.isIdentifying
  · cases hp : s.table? r.pkTableId with
    | none => simp [hr]
    | some p => simp [hr, nodesOf_addEdge, or_comm, eq_comm]
  · simp [hr]

theorem mem_nodesOf_foldl_addRelationshipEdge :
    ∀ (rs : List Relationship) (graph : List (String × List String)) {n : String},
      n ∈ nodesOf (rs.foldl (s.addRelationshipEdge t) graph) ↔ n ∈ nodesOf graph ∨
        ∃ r ∈ rs, r.isIdentifying ∧ ∃ p, s.table? r.pkTableId = some p ∧ p.name = n
  | [], graph, n => by simp
  | r :: rs, graph, n => by
    rw [List.foldl_cons, mem_nodesOf_foldl_addRelationshipEdge rs, mem_nodesOf_addRelationshipEdge,
      List.exists_mem_cons_iff, or_assoc]

theorem mem_nodesOf_addTableEdges (graph : List (String × List String)) {n : String} :
    n ∈ nodesOf (s.addTableEdges graph t) ↔ n ∈ nodesOf graph ∨ n = t.name ∨
      ∃ r ∈ t.relationships, r.isIdentifying ∧ ∃ p, s.table? r.pkTableId = some p ∧ p.name = n := by
  rw [addTableEdges, mem_nodesOf_foldl_addRelationshipEdge, nodesOf_addNode, mem_insertName]
  tauto

theorem mem_nodesOf_foldl_addTableEdges :
    ∀ (ts : List Table) (graph : List (String × List String)) {n : String},
      n ∈ nodesOf (ts.foldl s.addTableEdges graph) ↔ n ∈ nodesOf graph ∨
        ∃ t ∈ ts, n = t.name ∨ ∃ r ∈ t.relationships, r.isIdentifying ∧
          ∃ p, s.table? r.pkTableId = some p ∧ p.name = n
  | [], graph, n => by simp
  | t :: ts, graph, n => by
    rw [List.foldl_cons, mem_nodesOf_foldl_addTableEdges ts, mem_nodesOf_addTableEdges,
      List.exists_mem_cons_iff, or_assoc]

theorem SortedGraph.addRelationshipEdge {graph : List (String × List String)}
    (hg : SortedGraph graph) (ht : t.name ∈ nodesOf graph) (r : Relationship) :
    SortedGraph (s.addRelationshipEdge t graph r) ∧
      t.name ∈ nodesOf (s.addRelationshipEdge t graph r) := by
  unfold Schema.addRelationshipEdge
  split_ifs
  · split
    · rw [nodesOf_addEdge, mem_insertName]
      exact ⟨hg.addEdge _ ht, .inr ht⟩
    · exact ⟨hg, ht⟩
  · exact ⟨hg, ht⟩

theorem SortedGraph.foldl_addRelationshipEdge :
    ∀ (rs : List Relationship) {graph : List (String × List String)},
      SortedGraph graph → t.name ∈ nodesOf graph →
      SortedGraph (rs.foldl (s.addRelationshipEdge t) graph)
  | [], _, hg, _ => hg
  | r :: rs, _, hg, ht => by
    obtain ⟨hg', ht'⟩ := SortedGraph.addRelationshipEdge s t hg ht r
    exact SortedGraph.foldl_addRelationshipEdge rs hg' ht'

theorem SortedGraph.addTableEdges {graph : List (String × List String)}
    (hg : SortedGraph graph) : SortedGraph (s.addTableEdges graph t) :=
  SortedGraph.foldl_addRelationshipEdge s t _ (hg.addNode t.name)
    (by rw [nodesOf_addNode, mem_insertName]; exact .inl rfl)

end Edges

theorem sortedGraph_dependencyGraph (s : Schema) : SortedGraph s.dependencyGraph := by
  rw [dependencyGraph_eq]
  -- every table keeps the shape
  suffices h : ∀ (ts : List Table) (graph : List (String × List String)),
      SortedGraph graph → SortedGraph (ts.foldl s.addTableEdges graph) from
    h _ _ ⟨by simp [nodesOf], by simp, by simp⟩
  intro ts
  induction ts with
  | nil => exact fun _ hg => hg
  | cons t ts ih => exact fun _ hg => ih _ (SortedGraph.addTableEdges s t hg)

/-- The dependency graph has the shape Kahn's algorithm needs. -/
theorem dependencyGraph_shape (s : Schema) : GraphShape s.dependencyGraph :=
  (sortedGraph_dependencyGraph s).shape

/-- The edges of the dependency graph: provider name to holder name. -/
theorem precedes_dependencyGraph_iff (s : Schema) {a b : String} :
    Precedes s.dependencyGraph a b ↔ s.ProvidesByName a b := by
  rw [precedes_iff (dependencyGraph_shape s)]
  change HasEdge _ a b ↔ _
  rw [dependencyGraph_eq, hasEdge_foldl_addTableEdges]
  simp [HasEdge, ProvidesByName]

/-- The nodes of the dependency graph are the names of the tables. -/
theorem mem_nodesOf_dependencyGraph (s : Schema) {n : String} :
    n ∈ nodesOf s.dependencyGraph ↔ n ∈ s.tables.map (·.name) := by
  rw [dependencyGraph_eq, mem_nodesOf_foldl_addTableEdges]
  constructor
  · rintro (h | ⟨t, ht, rfl | ⟨r, -, -, p, hp, rfl⟩⟩)
    · simp [nodesOf] at h
    · exact List.mem_map_of_mem ht
    · -- a provider is found among the tables
      exact List.mem_map_of_mem (List.mem_of_find?_eq_some hp)
  · intro h
    obtain ⟨t, ht, rfl⟩ := List.mem_map.1 h
    exact .inr ⟨t, ht, .inl rfl⟩

/-- The edges of the dependency graph, as a relation. -/
theorem precedes_dependencyGraph (s : Schema) :
    Precedes s.dependencyGraph = s.ProvidesByName := by
  funext a b
  exact propext (precedes_dependencyGraph_iff s)

/-- The order report names no cycle exactly when providing by name has no cycle. -/
theorem identifyingOrder_cycle_eq_none_iff (s : Schema) :
    s.identifyingOrder.cycle = none ↔ ∀ a, ¬Relation.TransGen s.ProvidesByName a a := by
  rw [← precedes_dependencyGraph, ← placeReady_length_iff (dependencyGraph_shape s)]
  unfold identifyingOrder
  dsimp only
  split <;> simp_all

end Schema

end SchemaDesign
