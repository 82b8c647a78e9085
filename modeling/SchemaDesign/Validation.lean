import SchemaDesign.Graph
import SchemaDesign.ColumnType

/-!
# Validating a snapshot

`Database.validate` checks every rule that ties entities of a snapshot together, and reports
the first broken rule in a fixed order:

1. no two entities share an id (entities listed database, schema, then per table: the table, its
   columns, each index and its columns, each constraint and its columns, each relationship and
   its mappings);
2. per schema in order: its name is new, it points to its database, then per table in order: its
   name is new in the schema, it points to its schema, its index and constraint names are new in
   the schema, its columns, indexes and constraints are sound, its relationships are sound;
3. per schema, after its tables: identifying relationships form no cycle.

A sound column has a new name, points to its table, sits at its place in the sequence, and has a
suitable type. Index, constraint and mapping sequences count from one without gaps, and refer to
existing columns. An identifying relationship carries each key column of its provider into the
holder's key.
-/

namespace SchemaDesign

/-- A reference to a missing entity. -/
def dangling (entity : String) (owner : Id) (target : String) (targetId : Id) : DesignError :=
  .referenceDangling entity owner target targetId

/-- A sequence with a gap. -/
def gap (scope : String) (owner : Id) : DesignError := .sequenceNotGapless scope owner

/-- The first item that equals an earlier one, by a key. -/
def firstRepeat {α β : Type} [DecidableEq β] (key : α → β) (xs : List α) : Option α :=
  let step (acc : List β × Option α) (x : α) : List β × Option α :=
    match acc.2 with
    | some _ => acc
    | none => if acc.1.contains (key x) then (acc.1, some x) else (key x :: acc.1, none)
  (xs.foldl step ([], none)).2

/-- Runs a check on each item in order, stopping at the first refusal. -/
def checkEach {α : Type} (xs : List α) (f : α → Except DesignError Unit) :
    Except DesignError Unit :=
  xs.forM f

/-- Refuses when a repeat is found. -/
def refuseSome {α : Type} (o : Option α) (f : α → DesignError) : Except DesignError Unit :=
  match o with
  | some a => .error (f a)
  | none => .ok ()

/-- Refuses when a condition fails. -/
def ensure (c : Bool) (e : DesignError) : Except DesignError Unit :=
  if c then .ok () else .error e

namespace Table

/-- The ids of the table and its parts, each with the kind of entity it names, in order. -/
def labelledIds (t : Table) : List (String × Id) :=
  [("table", t.id)] ++ t.columns.map (fun c => ("column", c.id))
    ++ t.indexes.flatMap (fun i => ("index", i.id) :: i.columns.map fun c => ("index column", c.id))
    ++ t.constraints.flatMap (fun k =>
        ("constraint", k.id) :: k.columns.map fun c => ("constraint column", c.id))
    ++ t.relationships.flatMap (fun r =>
        ("relationship", r.id) :: r.columns.map fun m => ("relationship column", m.id))

/-- Checks the columns, indexes and constraints of the table. -/
def validateParts (t : Table) (vendor : Vendor) : Except DesignError Unit := do
  -- columns, in order: a new name, the owner, the position, the type
  let _ ← t.columns.foldlM (fun (acc : List String × Nat) c => do
      if acc.1.contains c.name then throw (.columnNameNotUnique t.name c.name)
      ensure (c.tableId = t.id) (dangling "column" c.id "table" c.tableId)
      ensure (c.ordinalPosition = acc.2 + 1) (gap "column" t.id)
      checkDataType vendor c.dataType c.lengthScale
      pure (c.name :: acc.1, acc.2 + 1)) ([], 0)
  -- indexes: the owner, the sequence and its columns, then a new definition
  let _ ← t.indexes.foldlM (fun (seen : List Index) i => do
      ensure (i.tableId = t.id) (dangling "index" i.id "table" i.tableId)
      let _ ← i.columns.foldlM (fun (n : Nat) c => do
          ensure (c.seqNo = n + 1) (gap "index column" i.id)
          ensure (t.column? c.columnId).isSome (dangling "index" i.id "column" c.columnId)
          pure (n + 1)) 0
      match seen.find? (·.signature = i.signature) with
      | some earlier => throw (.indexDefinitionDuplicate i.name earlier.name)
      | none => pure (seen ++ [i])) []
  -- constraints: the owner, one primary key, the sequence and its columns, a new definition
  let _ ← t.constraints.foldlM (fun (acc : List Constraint × Nat) k => do
      ensure (k.tableId = t.id) (dangling "constraint" k.id "table" k.tableId)
      let keys := if k.isPrimaryKey then acc.2 + 1 else acc.2
      ensure (keys ≤ 1) (.constraintMultiplePrimaryKey t.name)
      let _ ← k.columns.foldlM (fun (n : Nat) c => do
          ensure (c.seqNo = n + 1) (gap "constraint column" k.id)
          ensure (t.column? c.columnId).isSome (dangling "constraint" k.id "column" c.columnId)
          pure (n + 1)) 0
      match acc.1.find? (·.signature = k.signature) with
      | some earlier => throw (.duplicateKeyDefinition k.name earlier.name)
      | none => pure (acc.1 ++ [k], keys)) ([], 0)

/-- Checks one relationship held by the table. -/
def validateRelationship (s : Schema) (t : Table) (r : Relationship) :
    Except DesignError Unit := do
  ensure (r.fkTableId = t.id) (dangling "relationship" r.id "table" r.fkTableId)
  let some provider := s.table? r.pkTableId
    | throw (dangling "relationship" r.id "table" r.pkTableId)
  ensure (!r.columns.isEmpty) (.relationshipEmptyColumn r.name)
  let _ ← r.columns.foldlM (fun (n : Nat) m => do
      ensure (m.seqNo = n + 1) (gap "relationship column" r.id)
      let some fk := t.column? m.fkColumnId
        | throw (dangling "relationship" r.id "column" m.fkColumnId)
      let some pk := provider.column? m.pkColumnId
        | throw (dangling "relationship" r.id "column" m.pkColumnId)
      ensure (typesCompatible fk pk) (.relationshipColumnTypeIncompatible fk.name pk.name)
      pure (n + 1)) 0
  if r.isIdentifying then
    checkEach provider.keyColumns fun key =>
      let carried := r.columns.any fun m => m.pkColumnId = key && t.isKeyColumn m.fkColumnId
      let column := ((provider.column? key).map (·.name)).getD key.text
      ensure carried (.identifyingKeyNotPropagated t.name provider.name column)

/-- Checks the relationships held by the table: new names, then each in order. -/
def validateRelationships (s : Schema) (t : Table) : Except DesignError Unit := do
  let _ ← t.relationships.foldlM (fun (names : List String) r => do
      if names.contains r.name then throw (.relationshipNameNotUnique t.name r.name)
      t.validateRelationship s r
      pure (r.name :: names)) []

end Table

namespace Schema

/-- The refusal for a cycle among identifying relationships: the first identifying relationship
joining two blocked tables, else the first blocked table twice. -/
def cycleError (s : Schema) (members : List String) : DesignError :=
  let edge := s.tables.findSome? fun t =>
    ((t.relationships.filter (·.isIdentifying)).filterMap (fun r => s.table? r.pkTableId)).findSome?
      fun provider =>
        if members.contains t.name && members.contains provider.name then some (t.name, provider.name)
        else none
  match edge with
  | some (fk, pk) => .relationshipCyclicReference fk pk
  | none =>
    let first := members.headD ""
    .relationshipCyclicReference first first

/-- Checks the tables of the schema in order, then that identifying relationships form no cycle. -/
def validate (s : Schema) : Except DesignError Unit := do
  let _ ← s.tables.foldlM (fun (acc : List String × List String × List String) t => do
      let (tables, indexes, constraints) := acc
      if tables.contains t.name then throw (.tableNameNotUnique t.name)
      ensure (t.schemaId = s.id) (dangling "table" t.id "schema" t.schemaId)
      let indexes ← t.indexes.foldlM (fun (names : List String) i => do
          if names.contains i.name then throw (.indexNameNotUnique i.name)
          pure (i.name :: names)) indexes
      let constraints ← t.constraints.foldlM (fun (names : List String) k => do
          if names.contains k.name then throw (.constraintNameNotUnique k.name)
          pure (k.name :: names)) constraints
      t.validateParts s.vendor
      t.validateRelationships s
      pure (t.name :: tables, indexes, constraints)) ([], [], [])
  match s.identifyingOrder.cycle with
  | some members => throw (s.cycleError members)
  | none => pure ()

end Schema

namespace Database

/-- Every id of the snapshot with the kind of entity it names, in the order they are checked. -/
def labelledIds (db : Database) : List (String × Id) :=
  ("database", db.id) :: db.schemas.flatMap fun s =>
    ("schema", s.id) :: s.tables.flatMap Table.labelledIds

/-- Checks every rule of a snapshot, reporting the first one broken. -/
def validate (db : Database) : Except DesignError Unit := do
  refuseSome (firstRepeat (·.2) db.labelledIds) fun (entity, id) => .entityIdNotUnique entity id
  let _ ← db.schemas.foldlM (fun (names : List String) s => do
      if names.contains s.name then throw (.schemaNameNotUnique s.name)
      ensure (s.databaseId = db.id) (dangling "schema" s.id "database" s.databaseId)
      s.validate
      pure (s.name :: names)) []

end Database

end SchemaDesign
