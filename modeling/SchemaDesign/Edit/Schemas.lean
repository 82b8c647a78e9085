import SchemaDesign.Edit.Names
import SchemaDesign.Draft

/-!
# Schema operations

Schema names are unique within the database. The last schema may be deleted unless the settings
forbid it.
-/

namespace SchemaDesign

namespace EditM

/-- Creates an empty schema. -/
def createSchema (d : SchemaDraft) : EditM Unit := do
  checkSchemaName d.name none
  ensureFreshId "schema" d.id
  let db ← database
  let s : Schema := ⟨d.id, db.id, d.name, d.vendor, d.charset, d.collation, []⟩
  setDatabase { db with schemas := db.schemas ++ [s] }

/-- Deletes a schema with its tables. -/
def deleteSchema (schemaId : Id) : EditM Unit := do
  let _ ← schema schemaId
  let db ← database
  if !(← config).allowDeleteLastSchema && db.schemas.length = 1 then
    throw (.schemaDeleteLast schemaId)
  setDatabase { db with schemas := db.schemas.filter (·.id ≠ schemaId) }

/-- Renames a schema. -/
def changeSchemaName (schemaId : Id) (name : String) : EditM Unit := do
  let _ ← schema schemaId
  checkSchemaName name (some schemaId)
  modifySchema schemaId fun s => { s with name }

end EditM

end SchemaDesign
