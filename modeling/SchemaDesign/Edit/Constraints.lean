import SchemaDesign.Edit.Columns

/-!
# Constraint operations

Constraint names are unique within the schema. A constraint has at least one column, each once;
DEFAULT and NOT_NULL hold exactly one, CHECK and DEFAULT need a non-blank expression, and a
table has at most one primary key. No two constraints of a table share a definition, and no
UNIQUE constraint restates the primary key.

A primary key and NOT_NULL make their columns non-nullable, so they may not cover a column that
a SET NULL relationship maps. Key columns travel: a column joining the primary key is
propagated to identifying dependents, and one leaving it takes what was derived from it along.
-/

namespace SchemaDesign

/-- Refuses a constraint of the table whose definition another constraint already has, and a
UNIQUE constraint restating the primary key. -/
def Table.ensureDistinctKey (t : Table) (constraintId : Id) : Except DesignError Unit :=
  match t.constraint? constraintId with
  | none => .ok ()
  | some k =>
    match t.constraints.find? fun o => o.id ≠ constraintId && o.signature = k.signature with
    | some existing => .error (.duplicateKeyDefinition k.name existing.name)
    | none => t.ensureKeyNotRestated

/-- Changes the first constraint with this id. -/
def Table.updateConstraint (constraintId : Id) (f : Constraint → Constraint) (t : Table) : Table :=
  { t with constraints := updateFirst (·.id = constraintId) f t.constraints }

/-- The expression a constraint of this kind needs; other kinds need none. -/
def ConstraintDraft.expression (d : ConstraintDraft) : Option String :=
  match d.kind with
  | .check => d.checkExpr
  | .defaultValue => d.defaultExpr
  | _ => some "-"

/-- Whether the kind makes its columns non-nullable. -/
def ConstraintKind.forbidsNull : ConstraintKind → Bool
  | .primaryKey | .notNull => true
  | _ => false

namespace EditM

/-- The constraint with this id in the table. -/
def constraint (schemaId tableId constraintId : Id) : EditM Constraint := do
  let t ← table schemaId tableId
  match t.constraint? constraintId with
  | some k => pure k
  | none => throw (.constraintNotExist t.id constraintId)

/-- Refuses a key or NOT_NULL constraint on columns a SET NULL relationship maps. -/
def ensureNullabilityAllowed (schemaId tableId : Id) (kind : ConstraintKind)
    (columnIds : List Id) : EditM Unit :=
  if kind.forbidsNull then columnIds.forM (ensureNotSetNullTarget schemaId tableId) else pure ()

/-- The entries of a new constraint, numbered in order; each column must exist and appear
once. -/
def constraintColumns (schemaId tableId : Id) (name : String)
    (drafts : List ConstraintColumnDraft) : EditM (List ConstraintColumn) :=
  (drafts.zipIdx 1).foldlM (fun (acc : List ConstraintColumn) (d, n) => do
    let _ ← column schemaId tableId d.columnId
    ensureFreshId "constraint column" d.id
    if acc.any (·.columnId = d.columnId) then throw (.constraintColumnNotUnique name d.columnId)
    pure (acc ++ [⟨d.id, d.columnId, n⟩])) []

/-- Creates a constraint; a primary key propagates to identifying dependents. -/
def createConstraint (schemaId tableId : Id) (d : ConstraintDraft) : EditM Unit := do
  let t ← table schemaId tableId
  checkConstraintName schemaId d.name none
  ensureFreshId "constraint" d.id
  if d.columns.isEmpty then throw (.constraintColumnsEmpty d.name)
  if d.kind.isSingleColumn && d.columns.length ≠ 1 then
    throw (.constraintSingleColumnRequired d.name d.kind)
  if !(d.expression.any fun e => !(trimBlanks e).isEmpty) then
    throw (.constraintExpressionRequired d.name d.kind)
  if d.kind = .primaryKey && t.primaryKey?.isSome then
    throw (.constraintMultiplePrimaryKey t.name)
  let columns ← constraintColumns schemaId tableId d.name d.columns
  let columnIds := columns.map (·.columnId)
  ensureNullabilityAllowed schemaId tableId d.kind columnIds
  let checkExpr := if d.kind = .check then d.checkExpr else none
  let defaultExpr := if d.kind = .defaultValue then d.defaultExpr else none
  let k : Constraint := ⟨d.id, tableId, d.name, d.kind, checkExpr, defaultExpr, columns⟩
  modifyTable schemaId tableId fun t => { t with constraints := t.constraints ++ [k] }
  check ((← table schemaId tableId).ensureDistinctKey d.id)
  if d.kind = .primaryKey then
    let _ ← propagateKeys schemaId tableId columnIds

/-- Deletes a constraint; dropping a primary key removes what was derived from it. -/
def deleteConstraint (schemaId tableId constraintId : Id) : EditM Unit := do
  let k ← constraint schemaId tableId constraintId
  if k.isPrimaryKey then k.columnIds.forM (ensureKeyColumnRemovable schemaId tableId)
  modifyTable schemaId tableId fun t =>
    { t with constraints := t.constraints.filter (·.id ≠ constraintId) }
  if k.isPrimaryKey then
    let _ ← cascadeKeyRemoval schemaId (k.columnIds.map (tableId, ·)) true

/-- Renames a constraint. -/
def changeConstraintName (schemaId tableId constraintId : Id) (name : String) : EditM Unit := do
  let _ ← constraint schemaId tableId constraintId
  checkConstraintName schemaId name (some constraintId)
  modifyTable schemaId tableId (Table.updateConstraint constraintId fun k => { k with name })

/-- Appends a column to a constraint; a new key column propagates. -/
def addColumnToConstraint (schemaId tableId constraintId : Id) (d : ConstraintColumnDraft) :
    EditM Unit := do
  let _ ← column schemaId tableId d.columnId
  ensureFreshId "constraint column" d.id
  let k ← constraint schemaId tableId constraintId
  ensureNullabilityAllowed schemaId tableId k.kind [d.columnId]
  if k.containsColumn d.columnId then throw (.constraintColumnNotUnique k.name d.columnId)
  if k.kind.isSingleColumn then throw (.constraintSingleColumnRequired k.name k.kind)
  modifyTable schemaId tableId (Table.updateConstraint constraintId fun k =>
    { k with columns := k.columns ++ [⟨d.id, d.columnId, k.columns.length + 1⟩] })
  check ((← table schemaId tableId).ensureDistinctKey constraintId)
  if k.kind = .primaryKey then
    let _ ← propagateKeys schemaId tableId [d.columnId]

/-- Removes an entry from a constraint; an emptied constraint is deleted, and a column leaving
the primary key takes what was derived from it along. -/
def removeColumnFromConstraint (schemaId tableId constraintId entryId : Id) : EditM Unit := do
  let k ← constraint schemaId tableId constraintId
  let some entry := k.columns.find? (·.id = entryId)
    | throw (.constraintColumnNotExist constraintId entryId)
  if k.isPrimaryKey then ensureKeyColumnRemovable schemaId tableId entry.columnId
  let columns := renumber (fun c n => { c with seqNo := n }) (k.columns.filter (·.id ≠ entryId))
  if columns.isEmpty then
    modifyTable schemaId tableId fun t =>
      { t with constraints := t.constraints.filter (·.id ≠ constraintId) }
  else
    modifyTable schemaId tableId (Table.updateConstraint constraintId fun k => { k with columns })
    check ((← table schemaId tableId).ensureDistinctKey constraintId)
  if k.isPrimaryKey then
    let _ ← cascadeKeyRemoval schemaId [(tableId, entry.columnId)] true

end EditM

end SchemaDesign
