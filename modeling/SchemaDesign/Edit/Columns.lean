import SchemaDesign.Edit.Cascade
import SchemaDesign.ColumnType
import SchemaDesign.Draft

/-!
# Column operations

A column is checked like a new one whenever it changes: its name, its type against the
schema's vendor, and at most one auto-increment column per table, on an integer type. A column
that is not nullable carries a NOT_NULL constraint named `nn_<table>_<column>`.

Removing a column takes every foreign-key column derived from it along, but a holder column
that an identifying relationship needs for its provider's key cannot go. A column that a
SET NULL relationship maps must stay nullable.

A foreign-key column keeps the type of the column it references: a type change is refused when
it breaks that, and is copied into every column that references the changed one.
-/

namespace SchemaDesign

/-- The column's name, or its id when the table has no such column. -/
def Table.columnLabel (t : Table) (columnId : Id) : String :=
  ((t.column? columnId).map (·.name)).getD columnId.text

/-- The identifying relationship of the holder that needs the column for a key column of its
provider. -/
def Schema.keyRequirement? (s : Schema) (holder : Table) (columnId : Id) : Option Relationship :=
  holder.relationships.find? fun r =>
    r.isIdentifying && match s.table? r.pkTableId with
      | some provider => r.columns.any fun m =>
        m.fkColumnId = columnId && provider.isKeyColumn m.pkColumnId
      | none => false

/-- Refuses a second auto-increment column, and one that is not of an integer type. -/
def checkAutoIncrement (t : Table) (vendor : Vendor) (name : String) (dataType : Option String)
    (exclude : Option Id) : Except DesignError Unit :=
  if t.columns.any fun c => c.isAutoIncrement && !EditM.isExcluded exclude c.id then
    .error (.columnMultipleAutoIncrement t.name)
  else if !(dataType.any vendor.isIntegerType) then
    .error (.columnAutoIncrementNotInteger name)
  else .ok ()

/-- The column a mapping of the holder references whose type a candidate column would not
suit, in relationship and mapping order. -/
def Schema.incompatibleReference? (s : Schema) (holder : Table) (candidate : Column) :
    Option Column :=
  let referenced := holder.relationships.flatMap fun r =>
    (r.columns.filter (·.fkColumnId = candidate.id)).filterMap fun m =>
      (s.table? r.pkTableId).bind (·.column? m.pkColumnId)
  referenced.find? (!typesCompatible candidate ·)

/-- Inserts an item at a 0-based place. -/
def insertAt {α : Type} (xs : List α) (i : Nat) (x : α) : List α := xs.take i ++ x :: xs.drop i

/-- Changes the first column with this id. -/
def Table.updateColumn (columnId : Id) (f : Column → Column) (t : Table) : Table :=
  { t with columns := updateFirst (·.id = columnId) f t.columns }

/-- Whether a NOT_NULL constraint of the table holds the column. -/
def Table.hasNotNull (t : Table) (columnId : Id) : Bool :=
  t.constraints.any fun k => k.kind = .notNull && k.containsColumn columnId

namespace EditM

/-- Refuses removing a holder column that an identifying relationship needs for its provider's
key. -/
def ensureKeyColumnRemovable (schemaId tableId columnId : Id) : EditM Unit := do
  let s ← schema schemaId
  let t ← table schemaId tableId
  match s.keyRequirement? t columnId with
  | some r => throw (.foreignKeyColumnRequired (t.columnLabel columnId) r.name)
  | none => pure ()

/-- Refuses making a column non-nullable while a SET NULL relationship maps it. -/
def ensureNotSetNullTarget (schemaId tableId columnId : Id) : EditM Unit := do
  let t ← table schemaId tableId
  match t.relationships.find? fun r => r.usesSetNull && r.mapsFkColumn columnId with
  | some r => throw (.relationshipSetNullRequiresNullable r.name (t.columnLabel columnId))
  | none => pure ()

/-- A NOT_NULL constraint on one column, with fresh ids. -/
def notNullConstraint (tableId columnId : Id) (name : String) : EditM Constraint := do
  let id ← mint
  let entryId ← mint
  return ⟨id, tableId, name, .notNull, none, none, [⟨entryId, columnId, 1⟩]⟩

/-- Adds a NOT_NULL constraint on the column, named after the table and the column. -/
def addNotNull (schemaId tableId columnId : Id) (tableName columnName : String) :
    EditM Unit := do
  let name ← freshConstraintName schemaId
    ("nn_" ++ sanitize tableName ++ "_" ++ sanitize columnName)
  let k ← notNullConstraint tableId columnId name
  modifyTable schemaId tableId fun t => { t with constraints := t.constraints ++ [k] }

/-- Creates a column; a key column joins the primary key and propagates. -/
def createColumn (schemaId tableId : Id) (d : ColumnDraft) : EditM Unit := do
  let vendor := (← schema schemaId).vendor
  checkColumnName schemaId tableId d.name none
  ensureFreshId "column" d.id
  check (checkDataType vendor d.dataType d.lengthScale)
  let t ← table schemaId tableId
  if d.autoIncrement then check (checkAutoIncrement t vendor d.name d.dataType none)
  let count := t.columns.length
  let position := d.position.getD (count + 1)
  if position < 1 || position > count + 1 then
    throw (.columnPositionOutOfRange t.name position (count + 1))
  let nnName ← if d.nullable then pure none
    else some <$> freshConstraintName schemaId ("nn_" ++ sanitize t.name ++ "_" ++ sanitize d.name)
  let column : Column := ⟨d.id, tableId, d.name, position, d.dataType, d.lengthScale,
    d.autoIncrement, d.charset, d.collation, d.comment⟩
  modifyTable schemaId tableId fun t =>
    { t with columns := insertAt t.columns (position - 1) column }.resequenceColumns
  if let some name := nnName then
    let k ← notNullConstraint tableId d.id name
    modifyTable schemaId tableId fun t => { t with constraints := t.constraints ++ [k] }
  if d.primaryKey then
    addToPrimaryKey schemaId tableId [d.id]
    let _ ← propagateKeys schemaId tableId [d.id]

/-- Deletes a column and every foreign-key column derived from it. -/
def deleteColumn (schemaId tableId columnId : Id) : EditM Unit := do
  let _ ← column schemaId tableId columnId
  let t ← table schemaId tableId
  if t.columns.length = 1 then throw (.tableEmptyColumn t.name)
  ensureKeyColumnRemovable schemaId tableId columnId
  let _ ← cascadeKeyRemoval schemaId [(tableId, columnId)] false
  modifyTable schemaId tableId fun t => (t.detachColumn columnId).1

/-- Renames a column. -/
def changeColumnName (schemaId tableId columnId : Id) (name : String) : EditM Unit := do
  let _ ← column schemaId tableId columnId
  checkColumnName schemaId tableId name (some columnId)
  modifyTable schemaId tableId (Table.updateColumn columnId fun c => { c with name })

/-- Changes the type of a column and of every column that references it. -/
def changeColumnType (schemaId tableId columnId : Id) (dataType : Option String)
    (ls : Option LengthScale) : EditM Unit := do
  let vendor := (← schema schemaId).vendor
  let c ← column schemaId tableId columnId
  check (checkDataType vendor dataType ls)
  if c.isAutoIncrement && !(dataType.any vendor.isIntegerType) then
    throw (.columnAutoIncrementNotInteger c.name)
  let s ← schema schemaId
  let t ← table schemaId tableId
  let candidate := { c with dataType, lengthScale := ls }
  if let some referenced := s.incompatibleReference? t candidate then
    throw (.relationshipColumnTypeIncompatible candidate.name referenced.name)
  modifyTable schemaId tableId (Table.updateColumn columnId fun c => { c with dataType, lengthScale := ls })
  mirrorTypeChange schemaId tableId columnId dataType ls

/-- Moves a column to a 1-based position. -/
def changeColumnPosition (schemaId tableId columnId : Id) (position : Nat) : EditM Unit := do
  let _ ← column schemaId tableId columnId
  let t ← table schemaId tableId
  let count := t.columns.length
  if position < 1 || position > count then
    throw (.columnPositionOutOfRange t.name position count)
  match t.columns.find? (·.id = columnId) with
  | none => pure ()
  | some c =>
    let rest := t.columns.eraseP (·.id = columnId)
    putTable schemaId tableId { t with columns := insertAt rest (position - 1) c }.resequenceColumns

/-- Makes a column nullable or not, after checking it as if it were created anew. -/
def changeColumnNullable (schemaId tableId columnId : Id) (nullable : Bool) : EditM Unit := do
  let vendor := (← schema schemaId).vendor
  let c ← column schemaId tableId columnId
  checkColumnName schemaId tableId c.name (some columnId)
  check (checkDataType vendor c.dataType c.lengthScale)
  let t ← table schemaId tableId
  if c.isAutoIncrement then
    check (checkAutoIncrement t vendor c.name c.dataType (some columnId))
  if nullable then
    if t.isKeyColumn columnId then throw (.columnNullableInPrimaryKey c.name)
    modifyTable schemaId tableId fun t =>
      { t with constraints := t.constraints.filter fun k =>
        !(k.kind = .notNull && k.containsColumn columnId) }
  else
    ensureNotSetNullTarget schemaId tableId columnId
    if !t.hasNotNull columnId then
      addNotNull schemaId tableId columnId t.name c.name

/-- Turns auto-increment on or off. -/
def changeColumnAutoIncrement (schemaId tableId columnId : Id) (enabled : Bool) :
    EditM Unit := do
  let vendor := (← schema schemaId).vendor
  let c ← column schemaId tableId columnId
  if enabled then
    check (checkAutoIncrement (← table schemaId tableId) vendor c.name c.dataType (some columnId))
  modifyTable schemaId tableId (Table.updateColumn columnId fun c => { c with isAutoIncrement := enabled })

end EditM

end SchemaDesign
