import SchemaDesign.Draft
import SchemaDesign.Model.Supply

/-!
# Drafts with fresh ids

Constructors that take every id a draft needs from the supply of fresh ids, in the order the
fields are listed: a draft's own id first, then those of its entries.
-/

namespace SchemaDesign

/-- A fresh id from the supply in the state. -/
def IdSupply.take {m : Type → Type} [MonadStateOf IdSupply m] : m Id := modifyGet IdSupply.mint

variable {m : Type → Type} [Monad m] [MonadStateOf IdSupply m]

/-- A new schema for a vendor. -/
def SchemaDraft.new (name : String) (vendor : Vendor) : m SchemaDraft := do
  return { id := ← IdSupply.take, name, vendor }

/-- A new table. -/
def TableDraft.new (name : String) : m TableDraft := do
  return { id := ← IdSupply.take, name }

/-- A new nullable column without a type, appended to its table. -/
def ColumnDraft.new (name : String) : m ColumnDraft := do
  return { id := ← IdSupply.take, name }

/-- A new ascending index entry on a column. -/
def IndexColumnDraft.new (columnId : Id) : m IndexColumnDraft := do
  return { id := ← IdSupply.take, columnId }

/-- A new BTREE index on columns, in key order. -/
def IndexDraft.new (name : String) (columnIds : List Id) : m IndexDraft := do
  let id ← IdSupply.take
  let columns ← columnIds.mapM IndexColumnDraft.new
  return { id, name, columns }

/-- A new constraint entry on a column. -/
def ConstraintColumnDraft.new (columnId : Id) : m ConstraintColumnDraft := do
  return { id := ← IdSupply.take, columnId }

/-- A new constraint on columns, in key order, without expressions. -/
def ConstraintDraft.new (name : String) (kind : ConstraintKind) (columnIds : List Id) :
    m ConstraintDraft := do
  let id ← IdSupply.take
  let columns ← columnIds.mapM ConstraintColumnDraft.new
  return { id, name, kind, columns }

/-- A mapping of a provider column onto a new holder column. -/
def MappingDraft.new (pkColumnId : Id) : m MappingDraft := do
  let id ← IdSupply.take
  let fkColumnId ← IdSupply.take
  return { id, pkColumnId, fkColumnId }

/-- A mapping of a provider column onto an existing holder column. -/
def MappingDraft.existing (pkColumnId fkColumnId : Id) : m MappingDraft := do
  return { id := ← IdSupply.take, pkColumnId, fkColumnId }

/-- A new ONE_TO_MANY relationship with no actions, mapping each provider column onto a new
holder column. -/
def RelationshipDraft.new (name : String) (kind : RelationshipKind) (fkTableId pkTableId : Id)
    (pkColumnIds : List Id) : m RelationshipDraft := do
  let id ← IdSupply.take
  let columns ← pkColumnIds.mapM MappingDraft.new
  return { id, fkTableId, pkTableId, name, kind, columns }

end SchemaDesign
