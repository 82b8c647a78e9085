import SchemaDesign.Edit.Columns

/-!
# Index operations

Index names are unique within the schema. An index has at least one column, each once, and no
two indexes of a table share type, columns and sort order. An index left without columns is
removed.
-/

namespace SchemaDesign

/-- Refuses an index of the table whose definition another index already has. -/
def Table.ensureDistinctDefinition (t : Table) (indexId : Id) : Except DesignError Unit :=
  match t.index? indexId with
  | none => .ok ()
  | some i =>
    match t.indexes.find? fun o => o.id ≠ indexId && o.signature = i.signature with
    | some existing => .error (.indexDefinitionDuplicate i.name existing.name)
    | none => .ok ()

/-- Changes the first index with this id. -/
def Table.updateIndex (indexId : Id) (f : Index → Index) (t : Table) : Table :=
  { t with indexes := updateFirst (·.id = indexId) f t.indexes }

namespace EditM

/-- The index with this id in the table. -/
def index (schemaId tableId indexId : Id) : EditM Index := do
  let t ← table schemaId tableId
  match t.index? indexId with
  | some i => pure i
  | none => throw (.indexNotExist t.id indexId)

/-- The entries of a new index, numbered in order; each column must exist and appear once. -/
def indexColumns (schemaId tableId : Id) (name : String) (drafts : List IndexColumnDraft) :
    EditM (List IndexColumn) :=
  (drafts.zipIdx 1).foldlM (fun (acc : List IndexColumn) (d, n) => do
    let _ ← column schemaId tableId d.columnId
    ensureFreshId "index column" d.id
    if acc.any (·.columnId = d.columnId) then throw (.indexColumnNotUnique name d.columnId)
    pure (acc ++ [⟨d.id, d.columnId, n, d.sortDir⟩])) []

/-- Creates an index. -/
def createIndex (schemaId tableId : Id) (d : IndexDraft) : EditM Unit := do
  let vendor := (← schema schemaId).vendor
  let _ ← table schemaId tableId
  checkIndexName schemaId d.name none
  ensureFreshId "index" d.id
  if !vendor.supportsIndexType d.indexType then throw (.indexTypeNotSupported d.indexType vendor)
  if d.columns.isEmpty then throw (.indexColumnsEmpty d.name)
  let columns ← indexColumns schemaId tableId d.name d.columns
  modifyTable schemaId tableId fun t =>
    { t with indexes := t.indexes ++ [⟨d.id, tableId, d.name, d.indexType, columns⟩] }
  check ((← table schemaId tableId).ensureDistinctDefinition d.id)

/-- Deletes an index. -/
def deleteIndex (schemaId tableId indexId : Id) : EditM Unit := do
  let _ ← index schemaId tableId indexId
  modifyTable schemaId tableId fun t => { t with indexes := t.indexes.filter (·.id ≠ indexId) }

/-- Renames an index. -/
def changeIndexName (schemaId tableId indexId : Id) (name : String) : EditM Unit := do
  let _ ← index schemaId tableId indexId
  checkIndexName schemaId name (some indexId)
  modifyTable schemaId tableId (Table.updateIndex indexId fun i => { i with name })

/-- Appends a column to an index. -/
def addColumnToIndex (schemaId tableId indexId : Id) (d : IndexColumnDraft) : EditM Unit := do
  let _ ← column schemaId tableId d.columnId
  ensureFreshId "index column" d.id
  let i ← index schemaId tableId indexId
  if i.containsColumn d.columnId then throw (.indexColumnNotUnique i.name d.columnId)
  modifyTable schemaId tableId (Table.updateIndex indexId fun i =>
    { i with columns := i.columns ++ [⟨d.id, d.columnId, i.columns.length + 1, d.sortDir⟩] })
  check ((← table schemaId tableId).ensureDistinctDefinition indexId)

/-- Removes an entry from an index; an emptied index is deleted. -/
def removeColumnFromIndex (schemaId tableId indexId entryId : Id) : EditM Unit := do
  let i ← index schemaId tableId indexId
  let kept := i.columns.filter (·.id ≠ entryId)
  if kept.length = i.columns.length then throw (.indexColumnNotExist indexId entryId)
  if kept.isEmpty then
    modifyTable schemaId tableId fun t => { t with indexes := t.indexes.filter (·.id ≠ indexId) }
  else
    let columns := renumber (fun c n => { c with seqNo := n }) kept
    modifyTable schemaId tableId (Table.updateIndex indexId fun i => { i with columns })
    check ((← table schemaId tableId).ensureDistinctDefinition indexId)

/-- Changes the sort order of an index entry. -/
def changeIndexColumnSortDir (schemaId tableId indexId entryId : Id) (sortDir : SortDir) :
    EditM Unit := do
  let i ← index schemaId tableId indexId
  if !i.columns.any (·.id = entryId) then throw (.indexColumnNotExist indexId entryId)
  modifyTable schemaId tableId (Table.updateIndex indexId fun i =>
    { i with columns := updateFirst (·.id = entryId) (fun c => { c with sortDir }) i.columns })
  check ((← table schemaId tableId).ensureDistinctDefinition indexId)

end EditM

end SchemaDesign
