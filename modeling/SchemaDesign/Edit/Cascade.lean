import SchemaDesign.Edit.Keys
import SchemaDesign.Edit.Names
import SchemaDesign.Graph

/-!
# Cascades along foreign keys

Changes to a key travel to the tables that reference it.

- `attachForeignKey` maps a provider column into a relationship, creating the holder column
  first when it is missing: named as given, or `<provider>_<column>` made unique, and typed like
  the provider column.
- `propagateKeys`: new key columns of a provider are copied, through every identifying
  relationship that references it, into the holder's key, and from there onwards. Work is done
  breadth first, a (table, column) pair at most once.
- `cascadeKeyRemoval`: key columns that leave a provider take their mappings with them; a holder
  column no longer mapped by any of its relationships is detached, and its own dependents
  follow. Seeds that survive (the column stays, only its key role ends) reach only identifying
  relationships.
- `mirrorTypeChange`: a new type of a referenced column is copied into every column that
  references it, transitively.

Each traversal runs on a worklist with fuel. For cascades and mirroring the fuel is the number
of pairs that can ever enter the list. Key propagation adds columns, and its fuel
(`Schema.propagationFuel`) exceeds the number of paths through the relationships, which
suffices when identifying relationships form no cycle. On a cycle every column it copies is
new, so its queue never empties: the loop runs until it is stopped from outside, and in the
logic, where the fuel does run out, the edit is refused as a cyclic reference. It never
succeeds with the keys copied only part of the way.
-/

namespace SchemaDesign

/-- How a provider column is mapped into a relationship. -/
structure FkSpec where
  mappingId : Id
  fkColumnId : Id
  fkColumnName : Option String
  pkColumnId : Id

/-- A holder column mirroring a provider column: same type and character set, no default. -/
def mirrorColumn (source : Column) (id tableId : Id) (name : String) : Column :=
  { id, tableId, name, ordinalPosition := 0, dataType := source.dataType,
    lengthScale := source.lengthScale, isAutoIncrement := false, charset := source.charset,
    collation := source.collation, comment := none }

/-- The total number of mappings in a schema. -/
def Schema.mappingCount (s : Schema) : Nat := (s.relationships.map (·.columns.length)).foldr (· + ·) 0

/-- The rounds key propagation is given: more than the paths through the relationships, which
bound a run when identifying relationships form no cycle, and more than a run is ever given time
for. -/
def Schema.propagationFuel (s : Schema) : Nat :=
  Nat.pow (s.relationships.length + 1) (s.tables.length + 1) + Nat.pow 2 32

namespace EditM

/-- A spec with fresh ids for the mapping and a new holder column. -/
def freshSpec (pkColumnId : Id) : EditM FkSpec := do
  let mappingId ← mint
  let fkColumnId ← mint
  return ⟨mappingId, fkColumnId, none, pkColumnId⟩

/-- Maps a provider column into a relationship of the holder, creating the holder column when
it is missing; gives the holder column. -/
def attachForeignKey (schemaId holderId relationshipId providerId : Id) (spec : FkSpec) :
    EditM Id := do
  let provider ← table schemaId providerId
  let some source := provider.column? spec.pkColumnId
    | throw (.columnNotExist providerId spec.pkColumnId)
  let holder ← table schemaId holderId
  if (holder.column? spec.fkColumnId).isNone then
    ensureFreshId "column" spec.fkColumnId
    let name ← match spec.fkColumnName with
      | some n => do
        checkColumnName schemaId holderId n none
        pure n
      | none => do
        let base := sanitize provider.name ++ "_" ++ sanitize source.name
        pure (uniqueName base (← config).naming.column.max holder.columnNames)
    let column := mirrorColumn source spec.fkColumnId holderId name
    modifyTable schemaId holderId fun t => { t with columns := t.columns ++ [column] }.resequenceColumns
  ensureFreshId "relationship column" spec.mappingId
  let holder ← table schemaId holderId
  if (holder.relationship? relationshipId).isNone then
    throw (.relationshipNotExist relationshipId)
  let attach (r : Relationship) : Relationship :=
    { r with columns := r.columns ++
      [⟨spec.mappingId, spec.fkColumnId, spec.pkColumnId, r.columns.length + 1⟩] }
  modifyTable schemaId holderId fun t =>
    { t with relationships := updateFirst (·.id = relationshipId) attach t.relationships }
  return spec.fkColumnId

/-- Copies one key column of the provider into a dependent relationship that does not map it
yet; adds the holder column it maps to those created so far. -/
def propagateKey (schemaId providerId holderId relationshipId : Id) (added : List Id) (key : Id) :
    EditM (List Id) := do
  let holder ← table schemaId holderId
  let mapped := match holder.relationship? relationshipId with
    | some r => r.mapsPkColumn key
    | none => false
  if mapped then pure added
  else
    let fk ← attachForeignKey schemaId holderId relationshipId providerId (← freshSpec key)
    pure (added ++ [fk])

/-- Copies the provider's key columns `keys` into one dependent relationship; gives the holder
columns created. -/
def propagateInto (schemaId providerId holderId relationshipId : Id) (keys : List Id) :
    EditM (List Id) :=
  keys.foldlM (propagateKey schemaId providerId holderId relationshipId) []

/-- One dependent `(holder, relationship)` of a round of key propagation: the provider's new key
columns are copied into it, the holder columns created join the holder's key, and the holder is
queued with those of them not queued before. The accumulator holds the providers still to visit
with their new key columns, the (table, column) pairs queued so far, and the number of holder
columns created. -/
def propagateDependent (schemaId providerId : Id) (keys : List Id)
    (acc : List (Id × List Id) × List (Id × Id) × Nat) (dependent : Id × Id) :
    EditM (List (Id × List Id) × List (Id × Id) × Nat) := do
  let (holderId, relationshipId) := dependent
  let (rest, visited, count) := acc
  let added ← propagateInto schemaId providerId holderId relationshipId keys
  if added.isEmpty then pure acc
  else
    addToPrimaryKey schemaId holderId added
    emit ⟨.trace, .cascade, "propagated key columns",
      [("table", .text holderId.text), ("relationship", .text relationshipId.text),
       ("columns", .num added.length)]⟩
    let (fresh, visited) := added.foldl (fun (acc : List Id × List (Id × Id)) c =>
      if acc.2.contains (holderId, c) then acc else (acc.1 ++ [c], acc.2 ++ [(holderId, c)]))
      ([], visited)
    let rest := if fresh.isEmpty then rest else rest ++ [(holderId, fresh)]
    pure (rest, visited, count + added.length)

/-- The worklist of key propagation: (provider, its new key columns), breadth first. Out of fuel
with work left, it has gone round a cycle of identifying relationships. -/
def propagateLoop (schemaId : Id) :
    Nat → List (Id × List Id) → List (Id × Id) → Nat → EditM Nat
  | _, [], _, count => pure count
  | 0, (provider, _) :: _, _, _ => do
    let s ← schema schemaId
    throw (.relationshipCyclicReference (s.tableLabel provider) (s.tableLabel provider))
  | fuel + 1, (provider, keys) :: rest, visited, count => do
    let s ← schema schemaId
    let dependents := ((s.referencing provider).filter fun r =>
      r.isIdentifying && r.fkTableId ≠ provider).map fun r => (r.fkTableId, r.id)
    let (rest, visited, count) ←
      dependents.foldlM (propagateDependent schemaId provider keys) (rest, visited, count)
    propagateLoop schemaId fuel rest visited count

/-- Copies new key columns of a provider into every table that depends on it through
identifying relationships, transitively; gives the number of columns created. -/
def propagateKeys (schemaId providerId : Id) (keys : List Id) : EditM Nat := do
  let s ← schema schemaId
  let count ←
    propagateLoop schemaId s.propagationFuel [(providerId, keys)] (keys.map (providerId, ·)) 0
  if count > 0 then
    emit ⟨.debug, .cascade, "key propagation finished",
      [("provider", .text providerId.text), ("synthesized", .num count)]⟩
  return count

/-- Removes the mapping of `fk` to `key` from one relationship of a holder; detaches `fk` when
no relationship of the holder maps it any more. Gives whether it was detached and whether its
dependents are to be visited. -/
def dropMapping (schemaId holderId relationshipId fk key : Id) : EditM (Bool × Bool) := do
  let holder ← table schemaId holderId
  let strip (r : Relationship) : Relationship :=
    let kept := r.columns.filter fun m => !(m.fkColumnId = fk && m.pkColumnId = key)
    { r with columns := renumber (fun m n => { m with seqNo := n }) kept }
  let relationships := (updateFirst (·.id = relationshipId) strip holder.relationships).filter
    (!·.columns.isEmpty)
  let holder := { holder with relationships }
  if relationships.any (·.mapsFkColumn fk) then
    putTable schemaId holderId holder
    return (false, false)
  let (holder, removed) := holder.detachColumn fk
  putTable schemaId holderId holder
  if removed then
    emit ⟨.trace, .cascade, "removed foreign-key column",
      [("table", .text holderId.text), ("column", .text fk.text)]⟩
  return (removed, true)

/-- The worklist of key removal: (provider, key column, whether the column survives). -/
def removalLoop (schemaId : Id) :
    Nat → List (Id × Id × Bool) → List (Id × Id) → Nat → EditM Nat
  | 0, _, _, count => pure count
  | _ + 1, [], _, count => pure count
  | fuel + 1, (provider, key, survives) :: rest, visited, count => do
    let s ← schema schemaId
    let dependents := ((s.referencing provider).filter fun r => !survives || r.isIdentifying).flatMap
      fun r => (r.columns.filter (·.pkColumnId = key)).map fun m => (r.fkTableId, r.id, m.fkColumnId)
    let (rest, visited, count) ← dependents.foldlM
      (fun (acc : List (Id × Id × Bool) × List (Id × Id) × Nat) (holderId, relationshipId, fk) => do
        let (rest, visited, count) := acc
        let (removed, follow) ← dropMapping schemaId holderId relationshipId fk key
        let count := if removed then count + 1 else count
        if !follow || visited.contains (holderId, fk) then pure (rest, visited, count)
        else pure (rest ++ [(holderId, fk, false)], visited ++ [(holderId, fk)], count))
      (rest, visited, count)
    removalLoop schemaId fuel rest visited count

/-- Removes what depends on key columns that leave their table's key; gives the number of
holder columns detached. -/
def cascadeKeyRemoval (schemaId : Id) (seeds : List (Id × Id)) (seedsSurvive : Bool) :
    EditM Nat := do
  let s ← schema schemaId
  let fuel := seeds.length + s.mappingCount + 1
  let count ← removalLoop schemaId fuel (seeds.map fun (t, c) => (t, c, seedsSurvive)) seeds 0
  if count > 0 then
    emit ⟨.debug, .cascade, "foreign-key cascade finished", [("removed", .num count)]⟩
  return count

/-- The worklist of type mirroring: (provider, column whose type changed). -/
def mirrorLoop (schemaId : Id) (dataType : Option String) (ls : Option LengthScale) :
    Nat → List (Id × Id) → List (Id × Id) → EditM Unit
  | 0, _, _ => pure ()
  | _ + 1, [], _ => pure ()
  | fuel + 1, (provider, key) :: rest, visited => do
    let s ← schema schemaId
    let dependents := (s.referencing provider).flatMap fun r =>
      (r.columns.filter (·.pkColumnId = key)).map fun m => (r.fkTableId, m.fkColumnId)
    let (rest, visited) ← dependents.foldlM
      (fun (acc : List (Id × Id) × List (Id × Id)) (holderId, fk) => do
        let retype (c : Column) : Column := { c with dataType, lengthScale := ls }
        modifyTable schemaId holderId fun t =>
          { t with columns := updateFirst (·.id = fk) retype t.columns }
        if acc.2.contains (holderId, fk) then pure acc
        else pure (acc.1 ++ [(holderId, fk)], acc.2 ++ [(holderId, fk)]))
      (rest, visited)
    mirrorLoop schemaId dataType ls fuel rest visited

/-- Copies a column's new type into every column that references it, transitively. -/
def mirrorTypeChange (schemaId tableId columnId : Id) (dataType : Option String)
    (ls : Option LengthScale) : EditM Unit := do
  let s ← schema schemaId
  mirrorLoop schemaId dataType ls (s.mappingCount + 1) [(tableId, columnId)] [(tableId, columnId)]

end EditM

end SchemaDesign
