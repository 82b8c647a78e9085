import SchemaDesign.Edit.Relationships

/-!
# Table operations

Table names are checked for length only, and are unique within the schema. Deleting a table
first deletes every relationship it holds or provides, so the foreign-key columns derived from
its key leave the dependent tables.
-/

namespace SchemaDesign

/-- The relationships a table takes along when it is deleted: those referencing it, then those
it holds. -/
def Schema.attachedRelationships (s : Schema) (t : Table) : List Id :=
  let referencing := (s.referencing t.id).map (·.id)
  let own := (t.relationships.map (·.id)).filter (!referencing.contains ·)
  referencing ++ dedupBy (fun rid => rid) own

namespace EditM

/-- Creates an empty table. -/
def createTable (schemaId : Id) (d : TableDraft) : EditM Unit := do
  checkTableName schemaId d.name none
  ensureFreshId "table" d.id
  let t : Table := ⟨d.id, schemaId, d.name, d.comment, [], [], [], []⟩
  modifySchema schemaId fun s => { s with tables := s.tables ++ [t] }

/-- Deletes a table with every relationship it holds or provides. -/
def deleteTable (schemaId tableId : Id) : EditM Unit := do
  let t ← table schemaId tableId
  let ids := (← schema schemaId).attachedRelationships t
  ids.forM fun rid => do
    -- an earlier cascade may already have removed it
    if ((← schema schemaId).relationship? rid).isSome then deleteRelationship schemaId rid
  modifySchema schemaId fun s => { s with tables := s.tables.filter (·.id ≠ tableId) }

/-- Renames a table. -/
def changeTableName (schemaId tableId : Id) (name : String) : EditM Unit := do
  let _ ← table schemaId tableId
  checkTableName schemaId name (some tableId)
  modifyTable schemaId tableId fun t => { t with name }

/-- Sets or clears a table's comment. -/
def changeTableComment (schemaId tableId : Id) (comment : Option String) : EditM Unit :=
  modifyTable schemaId tableId fun t => { t with comment }

end EditM

end SchemaDesign
