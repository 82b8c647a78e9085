import SchemaDesign.Model.Basic

/-!
# Drafts

What a caller supplies to create an entity or to add an entry to one. Ids are chosen by the
caller, so a client can refer to an entity before the engine answers.

A mapping draft may name an existing holder column, which is then reused; otherwise a column
mirroring the referenced one is created under that id, named `fkColumnName` or
`<provider>_<column>`.
-/

namespace SchemaDesign

/-- A new schema. -/
structure SchemaDraft where
  id : Id
  name : String
  vendor : Vendor
  charset : Option String := none
  collation : Option String := none
  deriving DecidableEq, Repr, Inhabited

/-- A new table. -/
structure TableDraft where
  id : Id
  name : String
  comment : Option String := none
  deriving DecidableEq, Repr, Inhabited

/-- A new column; `position` is 1-based, the column is appended without one. -/
structure ColumnDraft where
  id : Id
  name : String
  dataType : Option String := none
  lengthScale : Option LengthScale := none
  position : Option Nat := none
  nullable : Bool := true
  primaryKey : Bool := false
  autoIncrement : Bool := false
  charset : Option String := none
  collation : Option String := none
  comment : Option String := none
  deriving DecidableEq, Repr, Inhabited

/-- A column of a new index, or one added to an index. -/
structure IndexColumnDraft where
  id : Id
  columnId : Id
  sortDir : SortDir := .asc
  deriving DecidableEq, Repr, Inhabited

/-- A new index; its columns in key order. -/
structure IndexDraft where
  id : Id
  name : String
  indexType : IndexType := .btree
  columns : List IndexColumnDraft
  deriving DecidableEq, Repr, Inhabited

/-- A column of a new constraint, or one added to a constraint. -/
structure ConstraintColumnDraft where
  id : Id
  columnId : Id
  deriving DecidableEq, Repr, Inhabited

/-- A new constraint; its columns in key order. -/
structure ConstraintDraft where
  id : Id
  name : String
  kind : ConstraintKind
  checkExpr : Option String := none
  defaultExpr : Option String := none
  columns : List ConstraintColumnDraft
  deriving DecidableEq, Repr, Inhabited

/-- One requested foreign-key mapping. -/
structure MappingDraft where
  id : Id
  pkColumnId : Id
  fkColumnId : Id
  fkColumnName : Option String := none
  deriving DecidableEq, Repr, Inhabited

/-- A new relationship. -/
structure RelationshipDraft where
  id : Id
  fkTableId : Id
  pkTableId : Id
  name : String
  kind : RelationshipKind
  cardinality : Cardinality := .oneToMany
  onDelete : ReferentialAction := .noAction
  onUpdate : ReferentialAction := .noAction
  columns : List MappingDraft
  deriving DecidableEq, Repr, Inhabited

end SchemaDesign
