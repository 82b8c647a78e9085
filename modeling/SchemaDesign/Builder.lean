import SchemaDesign.Model.Supply

/-!
# Fixture builders

Builders assemble snapshots directly, addressing tables and columns by name; the names are
resolved to fresh ids when the snapshot is built. They do no design validation, so a fixture
that must be consistent is validated afterwards.

Building fails, with a message, when a name does not resolve: a column of a key or index that
the table lacks, a relationship target that the schema lacks, or a mapped column that its table
lacks. Tables are assembled in order, keys before indexes; relationships are resolved after all
tables, holder by holder.
-/

namespace SchemaDesign

/-- A build step: it takes fresh ids from the supply and may fail with a message. -/
abbrev BuildM := StateT IdSupply (Except String)

/-- A fresh id. -/
def BuildM.fresh : BuildM Id := modifyGet IdSupply.mint

/-- A column to build. -/
structure ColumnBuilder where
  name : String
  dataType : Option String := none
  lengthScale : Option LengthScale := none
  autoIncrement : Bool := false
  deriving Repr, Inhabited

/-- A relationship held by the table it is added to, pointing at a table of the same schema by
name; its mappings pair a holder column with a target column. -/
structure RelationshipBuilder where
  name : String
  target : String
  kind : RelationshipKind
  cardinality : Cardinality := .oneToMany
  onDelete : ReferentialAction := .noAction
  onUpdate : ReferentialAction := .noAction
  mappings : List (String × String) := []
  deriving Repr, Inhabited

/-- A table to build: its columns, keys and indexes over column names, and its relationships. -/
structure TableBuilder where
  name : String
  comment : Option String := none
  columns : List ColumnBuilder := []
  keys : List (String × ConstraintKind × List String) := []
  indexes : List (String × List String) := []
  relationships : List RelationshipBuilder := []
  deriving Repr, Inhabited

namespace TableBuilder

/-- Adds a primary key named `pk_<table>`. -/
def primaryKey (t : TableBuilder) (columns : List String) : TableBuilder :=
  { t with keys := t.keys ++ [("pk_" ++ t.name, .primaryKey, columns)] }

/-- Adds a UNIQUE constraint. -/
def unique (t : TableBuilder) (name : String) (columns : List String) : TableBuilder :=
  { t with keys := t.keys ++ [(name, .unique, columns)] }

/-- Adds a NOT_NULL constraint named `nn_<table>_<column>`. -/
def notNull (t : TableBuilder) (column : String) : TableBuilder :=
  { t with keys := t.keys ++ [("nn_" ++ t.name ++ "_" ++ column, .notNull, [column])] }

/-- Adds a BTREE index. -/
def index (t : TableBuilder) (name : String) (columns : List String) : TableBuilder :=
  { t with indexes := t.indexes ++ [(name, columns)] }

end TableBuilder

/-- A schema to build; the vendor is MYSQL unless set. -/
structure SchemaBuilder where
  name : String
  vendor : Vendor := .mysql
  tables : List TableBuilder := []
  deriving Repr, Inhabited

/-- A database to build. -/
structure DatabaseBuilder where
  schemas : List SchemaBuilder := []
  deriving Repr, Inhabited

/-- The message for a column name that a table lacks. -/
def unknownColumn (column table : String) : String :=
  "unknown column '" ++ column ++ "' in table '" ++ table ++ "'"

/-- The id of the first column of the table with this name. -/
def Table.columnIdByName (t : Table) (name : String) : BuildM Id :=
  match t.columnByName? name with
  | some c => pure c.id
  | none => throw (unknownColumn name t.name)

namespace ColumnBuilder

/-- The column, at a 1-based position of a table. -/
def assemble (c : ColumnBuilder) (tableId : Id) (position : Nat) : BuildM Column := do
  let id ← BuildM.fresh
  return ⟨id, tableId, c.name, position, c.dataType, c.lengthScale, c.autoIncrement, none, none,
    none⟩

end ColumnBuilder

namespace TableBuilder

/-- The table without relationships: columns, then keys, then indexes. -/
def assemble (b : TableBuilder) (schemaId : Id) : BuildM Table := do
  let tableId ← BuildM.fresh
  let columns ← (b.columns.zipIdx 1).mapM fun (c, n) => c.assemble tableId n
  let bare : Table := ⟨tableId, schemaId, b.name, b.comment, columns, [], [], []⟩
  let constraints ← b.keys.mapM fun (name, kind, names) => do
    let id ← BuildM.fresh
    let entries ← (names.zipIdx 1).mapM fun (column, n) => do
      let entryId ← BuildM.fresh
      let columnId ← bare.columnIdByName column
      pure (⟨entryId, columnId, n⟩ : ConstraintColumn)
    pure (⟨id, tableId, name, kind, none, none, entries⟩ : Constraint)
  let indexes ← b.indexes.mapM fun (name, names) => do
    let id ← BuildM.fresh
    let entries ← (names.zipIdx 1).mapM fun (column, n) => do
      let entryId ← BuildM.fresh
      let columnId ← bare.columnIdByName column
      pure (⟨entryId, columnId, n, .asc⟩ : IndexColumn)
    pure (⟨id, tableId, name, .btree, entries⟩ : Index)
  return { bare with constraints, indexes }

end TableBuilder

namespace RelationshipBuilder

/-- The relationship held by `holder`, its target and columns resolved among `tables`. -/
def resolve (r : RelationshipBuilder) (tables : List Table) (holder : Table) :
    BuildM Relationship := do
  let some target := tables.find? (·.name = r.target)
    | throw ("unknown relationship target '" ++ r.target ++ "'")
  let id ← BuildM.fresh
  let columns ← (r.mappings.zipIdx 1).mapM fun ((fk, pk), n) => do
    let mappingId ← BuildM.fresh
    let fkId ← holder.columnIdByName fk
    let pkId ← target.columnIdByName pk
    pure (⟨mappingId, fkId, pkId, n⟩ : KeyMapping)
  return ⟨id, holder.id, target.id, r.name, r.kind, r.cardinality, r.onDelete, r.onUpdate, columns⟩

end RelationshipBuilder

namespace SchemaBuilder

/-- The schema in a database: tables first, then the relationships of each holder. -/
def assemble (b : SchemaBuilder) (databaseId : Id) : BuildM Schema := do
  let schemaId ← BuildM.fresh
  let bare ← b.tables.mapM (·.assemble schemaId)
  let tables ← (b.tables.zip bare).mapM fun (tb, t) => do
    let relationships ← tb.relationships.mapM (·.resolve bare t)
    pure { t with relationships }
  return ⟨schemaId, databaseId, b.name, b.vendor, none, none, tables⟩

/-- The schema on its own, with a fresh database id. -/
def buildSchema (b : SchemaBuilder) : BuildM Schema := do
  let databaseId ← BuildM.fresh
  b.assemble databaseId

end SchemaBuilder

/-- The database with its schemas in order. -/
def DatabaseBuilder.build (b : DatabaseBuilder) : BuildM Database := do
  let id ← BuildM.fresh
  let schemas ← b.schemas.mapM (·.assemble id)
  return ⟨id, schemas⟩

/-- A database holding only this schema. -/
def SchemaBuilder.build (b : SchemaBuilder) : BuildM Database :=
  DatabaseBuilder.build { schemas := [b] }

end SchemaDesign
