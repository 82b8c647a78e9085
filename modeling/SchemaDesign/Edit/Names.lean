import SchemaDesign.Edit.Session

/-!
# Names of new and renamed entities

Each kind of entity has its own rule and its own scope of uniqueness. `exclude` names the
entity being renamed, which may keep its own name.

| entity | rule | unique within |
|---|---|---|
| schema | identifier | the database |
| table | length only | the schema |
| column | identifier, not a reserved word | the table |
| index | identifier | the schema |
| constraint | identifier | the schema |
| relationship | identifier | the holding table |

The rule is checked before the scope is looked up, so a bad name is refused even where the
schema or table does not exist.
-/

namespace SchemaDesign

namespace EditM

/-- Whether an id is the excluded one. -/
def isExcluded (exclude : Option Id) (id : Id) : Bool := exclude == some id

/-- Checks a schema name. -/
def checkSchemaName (name : String) (exclude : Option Id) : EditM Unit := do
  match checkIdentifier name (← config).naming.schema with
  | .error rule => throw (.schemaNameInvalid name rule)
  | .ok () => pure ()
  if (← database).schemas.any fun s => s.name = name && !isExcluded exclude s.id then
    throw (.schemaNameNotUnique name)

/-- Checks a table name: only its length, then that no other table of the schema has it. -/
def checkTableName (schemaId : Id) (name : String) (exclude : Option Id) : EditM Unit := do
  match checkLength name (← config).naming.table with
  | .error rule => throw (.tableNameInvalid name rule)
  | .ok () => pure ()
  if (← schema schemaId).tables.any fun t => t.name = name && !isExcluded exclude t.id then
    throw (.tableNameNotUnique name)

/-- Checks a column name. -/
def checkColumnName (schemaId tableId : Id) (name : String) (exclude : Option Id) :
    EditM Unit := do
  match checkIdentifier name (← config).naming.column with
  | .error rule => throw (.columnNameInvalid name rule)
  | .ok () => pure ()
  if isReserved name then throw (.columnNameReservedKeyword name)
  let t ← table schemaId tableId
  if t.columns.any fun c => c.name = name && !isExcluded exclude c.id then
    throw (.columnNameNotUnique t.name name)

/-- Checks an index name. -/
def checkIndexName (schemaId : Id) (name : String) (exclude : Option Id) : EditM Unit := do
  match checkIdentifier name (← config).naming.index with
  | .error rule => throw (.indexNameInvalid name rule)
  | .ok () => pure ()
  if (← schema schemaId).indexes.any fun i => i.name = name && !isExcluded exclude i.id then
    throw (.indexNameNotUnique name)

/-- Checks a constraint name. -/
def checkConstraintName (schemaId : Id) (name : String) (exclude : Option Id) :
    EditM Unit := do
  match checkIdentifier name (← config).naming.constraint with
  | .error rule => throw (.constraintNameInvalid name rule)
  | .ok () => pure ()
  if (← schema schemaId).constraints.any fun k => k.name = name && !isExcluded exclude k.id then
    throw (.constraintNameNotUnique name)

/-- Checks a relationship name within the holding table. -/
def checkRelationshipName (schemaId tableId : Id) (name : String) (exclude : Option Id) :
    EditM Unit := do
  match checkIdentifier name (← config).naming.relationship with
  | .error rule => throw (.relationshipNameInvalid name rule)
  | .ok () => pure ()
  let t ← table schemaId tableId
  if t.relationships.any fun r => r.name = name && !isExcluded exclude r.id then
    throw (.relationshipNameNotUnique t.name name)

end EditM

end SchemaDesign
