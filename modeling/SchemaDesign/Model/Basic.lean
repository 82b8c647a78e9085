import SchemaDesign.Model.Kinds

/-!
# Design snapshots

A snapshot is a database of schemas; a schema holds tables; a table holds its columns, indexes,
constraints, and the relationships whose foreign key it holds. Entities refer to each other by
id. Lists keep the order they were written in, and every lookup returns the first match, so a
snapshot with a repeated id or name still answers each lookup in one way.

A table's primary key is its first PRIMARY_KEY constraint, and its key columns are that
constraint's columns in order. A column is nullable unless a PRIMARY_KEY or NOT_NULL constraint
holds it.
-/

namespace SchemaDesign

/-- The identifier of an entity. -/
structure Id where
  text : String
  deriving DecidableEq, Repr, Inhabited, Hashable

instance : ToString Id := ⟨Id.text⟩

/-- A column of a table. -/
structure Column where
  id : Id
  tableId : Id
  name : String
  ordinalPosition : Nat
  dataType : Option String
  lengthScale : Option LengthScale
  isAutoIncrement : Bool
  charset : Option String
  collation : Option String
  comment : Option String
  deriving DecidableEq, Repr, Inhabited

/-- One column of an index. -/
structure IndexColumn where
  id : Id
  columnId : Id
  seqNo : Nat
  sortDir : SortDir
  deriving DecidableEq, Repr, Inhabited

/-- An index of a table. -/
structure Index where
  id : Id
  tableId : Id
  name : String
  indexType : IndexType
  columns : List IndexColumn
  deriving DecidableEq, Repr, Inhabited

/-- One column of a constraint. -/
structure ConstraintColumn where
  id : Id
  columnId : Id
  seqNo : Nat
  deriving DecidableEq, Repr, Inhabited

/-- A constraint of a table. -/
structure Constraint where
  id : Id
  tableId : Id
  name : String
  kind : ConstraintKind
  checkExpr : Option String
  defaultExpr : Option String
  columns : List ConstraintColumn
  deriving DecidableEq, Repr, Inhabited

/-- A foreign-key column of the holder mapped to the column it references in the provider. -/
structure KeyMapping where
  id : Id
  fkColumnId : Id
  pkColumnId : Id
  seqNo : Nat
  deriving DecidableEq, Repr, Inhabited

/-- A relationship, stored on the table that holds its foreign key. -/
structure Relationship where
  id : Id
  /-- The holder: the table with the foreign-key columns. -/
  fkTableId : Id
  /-- The provider: the table whose key is referenced. -/
  pkTableId : Id
  name : String
  kind : RelationshipKind
  cardinality : Cardinality
  onDelete : ReferentialAction
  onUpdate : ReferentialAction
  columns : List KeyMapping
  deriving DecidableEq, Repr, Inhabited

/-- A table and all it owns. -/
structure Table where
  id : Id
  schemaId : Id
  name : String
  comment : Option String
  columns : List Column
  indexes : List Index
  constraints : List Constraint
  relationships : List Relationship
  deriving DecidableEq, Repr, Inhabited

/-- A namespace of tables designed for one vendor. -/
structure Schema where
  id : Id
  databaseId : Id
  name : String
  vendor : Vendor
  charset : Option String
  collation : Option String
  tables : List Table
  deriving DecidableEq, Repr, Inhabited

/-- A design snapshot. -/
structure Database where
  id : Id
  schemas : List Schema
  deriving DecidableEq, Repr, Inhabited

namespace Index

/-- What makes two indexes the same: the access method and the columns with their directions. -/
def signature (i : Index) : IndexType × List (Id × SortDir) :=
  (i.indexType, i.columns.map fun c => (c.columnId, c.sortDir))

/-- Whether the index holds a column. -/
def containsColumn (i : Index) (columnId : Id) : Bool := i.columns.any (·.columnId = columnId)

end Index

namespace Constraint

/-- The ids of the constraint's columns, in order. -/
def columnIds (k : Constraint) : List Id := k.columns.map (·.columnId)

/-- What makes two constraints the same: kind, expressions and columns in order. -/
def signature (k : Constraint) : ConstraintKind × Option String × Option String × List Id :=
  (k.kind, k.checkExpr, k.defaultExpr, k.columnIds)

/-- Whether the constraint holds a column. -/
def containsColumn (k : Constraint) (columnId : Id) : Bool := k.columns.any (·.columnId = columnId)

/-- Whether the constraint is a primary key. -/
def isPrimaryKey (k : Constraint) : Bool := k.kind = .primaryKey

end Constraint

namespace Relationship

/-- Whether the relationship is identifying. -/
def isIdentifying (r : Relationship) : Bool := r.kind = .identifying

/-- Whether either action sets the foreign key to null. -/
def usesSetNull (r : Relationship) : Bool := r.onDelete = .setNull || r.onUpdate = .setNull

/-- Whether some mapping references a provider column. -/
def mapsPkColumn (r : Relationship) (pkColumnId : Id) : Bool :=
  r.columns.any (·.pkColumnId = pkColumnId)

/-- Whether some mapping uses a holder column. -/
def mapsFkColumn (r : Relationship) (fkColumnId : Id) : Bool :=
  r.columns.any (·.fkColumnId = fkColumnId)

/-- The holder's foreign-key columns, in mapping order. -/
def fkColumnIds (r : Relationship) : List Id := r.columns.map (·.fkColumnId)

end Relationship

namespace Table

/-- The first column with this id. -/
def column? (t : Table) (columnId : Id) : Option Column := t.columns.find? (·.id = columnId)

/-- The first column with this name. -/
def columnByName? (t : Table) (name : String) : Option Column := t.columns.find? (·.name = name)

/-- The first index with this id. -/
def index? (t : Table) (indexId : Id) : Option Index := t.indexes.find? (·.id = indexId)

/-- The first index with this name. -/
def indexByName? (t : Table) (name : String) : Option Index := t.indexes.find? (·.name = name)

/-- The first constraint with this id. -/
def constraint? (t : Table) (constraintId : Id) : Option Constraint :=
  t.constraints.find? (·.id = constraintId)

/-- The first constraint with this name. -/
def constraintByName? (t : Table) (name : String) : Option Constraint :=
  t.constraints.find? (·.name = name)

/-- The first relationship held here with this id. -/
def relationship? (t : Table) (relationshipId : Id) : Option Relationship :=
  t.relationships.find? (·.id = relationshipId)

/-- The first relationship held here with this name. -/
def relationshipByName? (t : Table) (name : String) : Option Relationship :=
  t.relationships.find? (·.name = name)

/-- The primary key: the first PRIMARY_KEY constraint. -/
def primaryKey? (t : Table) : Option Constraint := t.constraints.find? (·.kind = .primaryKey)

/-- The key columns in key order; none without a primary key. -/
def keyColumns (t : Table) : List Id := (t.primaryKey?.map Constraint.columnIds).getD []

/-- Whether a column belongs to the primary key. -/
def isKeyColumn (t : Table) (columnId : Id) : Bool :=
  match t.primaryKey? with
  | some pk => pk.containsColumn columnId
  | none => false

/-- A column is nullable unless a PRIMARY_KEY or NOT_NULL constraint holds it. -/
def isNullable (t : Table) (columnId : Id) : Bool :=
  !t.constraints.any fun k =>
    (k.kind = .primaryKey || k.kind = .notNull) && k.containsColumn columnId

/-- The columns ordered by ordinal position; columns of equal position keep their order. -/
def orderedColumns (t : Table) : List Column :=
  t.columns.mergeSort fun a b => a.ordinalPosition ≤ b.ordinalPosition

/-- The names of the columns. -/
def columnNames (t : Table) : List String := t.columns.map (·.name)

end Table

namespace Schema

/-- The first table with this id. -/
def table? (s : Schema) (tableId : Id) : Option Table := s.tables.find? (·.id = tableId)

/-- The first table with this name. -/
def tableByName? (s : Schema) (name : String) : Option Table := s.tables.find? (·.name = name)

/-- All relationships, table by table. -/
def relationships (s : Schema) : List Relationship := s.tables.flatMap (·.relationships)

/-- The first relationship with this id, with the table holding it. -/
def relationship? (s : Schema) (relationshipId : Id) : Option (Table × Relationship) :=
  s.tables.findSome? fun t => (t.relationship? relationshipId).map (t, ·)

/-- The relationships whose provider is `tableId`. -/
def referencing (s : Schema) (tableId : Id) : List Relationship :=
  s.relationships.filter (·.pkTableId = tableId)

/-- All constraints, table by table. -/
def constraints (s : Schema) : List Constraint := s.tables.flatMap (·.constraints)

/-- All indexes, table by table. -/
def indexes (s : Schema) : List Index := s.tables.flatMap (·.indexes)

end Schema

namespace Database

/-- The empty database with this id. -/
def empty (id : Id) : Database := ⟨id, []⟩

/-- The first schema with this id. -/
def schema? (db : Database) (schemaId : Id) : Option Schema := db.schemas.find? (·.id = schemaId)

/-- The first schema with this name. -/
def schemaByName? (db : Database) (name : String) : Option Schema :=
  db.schemas.find? (·.name = name)

end Database

namespace Table

/-- Whether an entity of the table, or one of its parts, has this id. -/
def usesId (t : Table) (id : Id) : Bool :=
  t.id = id
    || t.columns.any (·.id = id)
    || t.indexes.any (fun i => i.id = id || i.columns.any (·.id = id))
    || t.constraints.any (fun k => k.id = id || k.columns.any (·.id = id))
    || t.relationships.any (fun r => r.id = id || r.columns.any (·.id = id))

end Table

namespace Database

/-- Whether any entity at any depth has this id. -/
def usesId (db : Database) (id : Id) : Bool :=
  db.id = id || db.schemas.any fun s => s.id = id || s.tables.any (·.usesId id)

end Database

/-- Every id the table holds: those of the table and its parts, and those they refer to. -/
def Table.mentionedIds (t : Table) : List Id :=
  t.id :: t.schemaId :: t.columns.flatMap (fun c => [c.id, c.tableId])
    ++ t.indexes.flatMap (fun i =>
        i.id :: i.tableId :: i.columns.flatMap fun c => [c.id, c.columnId])
    ++ t.constraints.flatMap (fun k =>
        k.id :: k.tableId :: k.columns.flatMap fun c => [c.id, c.columnId])
    ++ t.relationships.flatMap (fun r =>
        r.id :: r.fkTableId :: r.pkTableId :: r.columns.flatMap fun m => [m.id, m.fkColumnId, m.pkColumnId])

/-- Every id the snapshot holds, as an entity's or in a reference. -/
def Database.mentionedIds (db : Database) : List Id :=
  db.id :: db.schemas.flatMap fun s => s.id :: s.databaseId :: s.tables.flatMap Table.mentionedIds

end SchemaDesign
