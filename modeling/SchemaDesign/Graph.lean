import SchemaDesign.Model.Basic
import SchemaDesign.DesignError

/-!
# Identifying dependencies between tables

An identifying relationship makes its holder depend on its provider: the holder's key includes
the provider's key. Two questions are asked of these dependencies.

- `Schema.reachesProvider`: following identifying relationships from one table to its providers,
  is another table reached? A new identifying relationship from `fk` to `pk` would close a cycle
  exactly when `pk` reaches `fk` (a table reaches itself in no steps).
- `Schema.identifyingOrder`: tables are nodes named by their names (tables of one name are one
  node), and each identifying relationship whose provider exists is an edge from provider to
  holder. The order lists the nodes so that every provider comes before its holders, choosing
  among the nodes that are free at each step the least name. When no such order exists, the
  report names the nodes that remain blocked, in name order.
-/

namespace SchemaDesign

/-- Inserts a name into a sorted list of names, once. -/
def insertName (n : String) : List String → List String
  | [] => [n]
  | m :: ms => if n < m then n :: m :: ms else if n = m then m :: ms else m :: insertName n ms

/-- The dependents of a node in a sorted adjacency list. -/
def dependentsOf (graph : List (String × List String)) (n : String) : List String :=
  ((graph.find? (·.1 = n)).map (·.2)).getD []

/-- Adds a node, with no dependents if it is new, keeping the list sorted by name. -/
def addNode (n : String) : List (String × List String) → List (String × List String)
  | [] => [(n, [])]
  | e :: es => if n < e.1 then (n, []) :: e :: es else if n = e.1 then e :: es else e :: addNode n es

/-- Adds an edge from a provider to a holder, adding the provider if it is new. -/
def addEdge (provider holder : String) (graph : List (String × List String)) :
    List (String × List String) :=
  (addNode provider graph).map fun e => if e.1 = provider then (e.1, insertName holder e.2) else e

/-- How many nodes and edges the dependency graph has. -/
structure GraphSummary where
  nodes : Nat
  edges : Nat
  deriving DecidableEq, Repr, Inhabited

/-- The dependency order of a schema's tables, or the tables caught in a cycle. -/
structure OrderReport where
  summary : GraphSummary
  order : Option (List String)
  cycle : Option (List String)
  deriving DecidableEq, Repr, Inhabited

/-- Count of incoming edges per node, sorted by name. -/
abbrev InDegrees := List (String × Nat)

/-- Lowers the count of a node by one, not below zero. -/
def lowerDegree (n : String) (ds : InDegrees) : InDegrees :=
  ds.map fun d => if d.1 = n then (d.1, d.2 - 1) else d

/-- The count of a node. -/
def degreeOf (ds : InDegrees) (n : String) : Nat := ((ds.find? (·.1 = n)).map (·.2)).getD 0

/-- Releases the dependents of a placed node: each loses one incoming edge, and those left with
none join the ready names. -/
def release (targets : List String) (ds : InDegrees) (ready : List String) :
    InDegrees × List String :=
  targets.foldl (fun (acc : InDegrees × List String) t =>
    let ds := lowerDegree t acc.1
    if ds.any (·.1 = t) && degreeOf ds t = 0 then (ds, insertName t acc.2) else (ds, acc.2))
    (ds, ready)

/-- Places ready nodes, least name first, until none is ready or `fuel` runs out. -/
def placeReady (graph : List (String × List String)) :
    Nat → InDegrees → List String → List String → InDegrees × List String
  | 0, ds, _, placed => (ds, placed.reverse)
  | _ + 1, ds, [], placed => (ds, placed.reverse)
  | fuel + 1, ds, n :: ready, placed =>
    let (ds', ready') := release (dependentsOf graph n) ds ready
    placeReady graph fuel ds' ready' (n :: placed)

namespace Schema

/-- The dependency graph: nodes by name, each with its sorted dependents. -/
def dependencyGraph (s : Schema) : List (String × List String) :=
  s.tables.foldl (fun g t =>
    t.relationships.foldl (fun g r =>
      if r.isIdentifying then
        match s.table? r.pkTableId with
        | some provider => addEdge provider.name t.name g
        | none => g
      else g) (addNode t.name g)) []

/-- The dependency order of the tables, or the nodes left blocked by a cycle. -/
def identifyingOrder (s : Schema) : OrderReport :=
  let graph := s.dependencyGraph
  let summary : GraphSummary := ⟨graph.length, (graph.map (·.2.length)).foldr (· + ·) 0⟩
  let degrees : InDegrees := graph.map fun e => (e.1, (graph.filter (·.2.contains e.1)).length)
  let ready := (degrees.filter (·.2 = 0)).map (·.1)
  let (ds, order) := placeReady graph graph.length degrees ready []
  if order.length = graph.length then ⟨summary, some order, none⟩
  else ⟨summary, none, some ((ds.filter (0 < ·.2)).map (·.1))⟩

/-- The providers of a table along identifying relationships other than `ignore`. -/
def identifyingProviders (s : Schema) (tableId : Id) (ignore : Option Id) : List Id :=
  match s.table? tableId with
  | none => []
  | some t => (t.relationships.filter fun r => r.isIdentifying && some r.id != ignore).map
      (·.pkTableId)

/-- Depth-first search from the stack's tables towards `goal`; `fuel` bounds the steps. -/
def searchProviders (s : Schema) (goal : Id) (ignore : Option Id) :
    Nat → List Id → List Id → Bool
  | 0, _, _ => false
  | _ + 1, [], _ => false
  | fuel + 1, current :: stack, visited =>
    if current = goal then true
    else if visited.contains current then searchProviders s goal ignore fuel stack visited
    else
      let visited := current :: visited
      let next := (s.identifyingProviders current ignore).filter (!visited.contains ·)
      searchProviders s goal ignore fuel (next.reverse ++ stack) visited

/-- Whether `goal` is reached from `start` along identifying relationships other than `ignore`. -/
def reachesProvider (s : Schema) (start goal : Id) (ignore : Option Id) : Bool :=
  -- each step expands a table once, pushing at most its relationships
  searchProviders s goal ignore (s.relationships.length + 1) [start] []

/-- A table's name, or its id when no table has it. -/
def tableLabel (s : Schema) (tableId : Id) : String :=
  ((s.table? tableId).map (·.name)).getD tableId.text

/-- Refuses an identifying relationship from `fk` to `pk` (other than `ignore`) that would close
a cycle. -/
def ensureAcyclic (s : Schema) (fk pk : Id) (ignore : Option Id) : Except DesignError Unit :=
  if s.reachesProvider pk fk ignore then
    .error (.relationshipCyclicReference (s.tableLabel fk) (s.tableLabel pk))
  else .ok ()

end Schema

end SchemaDesign
