import SchemaDesign.Edit.Columns
import SchemaDesign.Graph

/-!
# Relationship operations

A relationship lives on its holder, the table with the foreign-key columns, and references its
provider. Its name is unique within the holder. It maps at least one column; each provider
column and each holder column at most once, and each holder column has the type of the column it
references. Identifying relationships form no cycle, and a SET NULL relationship needs its
holder columns nullable.

An identifying relationship maps the provider's whole key, and its holder columns belong to the
holder's key. Making a relationship identifying completes the mapping and propagates the new
key columns; making it non-identifying takes the columns only it kept in the key out again.

Every change is followed by checking the stored relationship as if it were created now, which
also catches what a malformed snapshot brought along. A holder column that no relationship of
the holder maps any more is detached, and what was derived from it goes with it.
-/

namespace SchemaDesign

/-- Checks the stored mappings of a relationship in order: both columns exist, each is mapped
once, and the types suit. -/
def Relationship.checkMappings (r : Relationship) (holder provider : Table) :
    Except DesignError Unit :=
  go r.columns [] []
where
  go : List KeyMapping → List Id → List Id → Except DesignError Unit
    | [], _, _ => .ok ()
    | m :: ms, pks, fks => do
      let some referenced := provider.column? m.pkColumnId
        | .error (.columnNotExist provider.id m.pkColumnId)
      let some fkColumn := holder.column? m.fkColumnId
        | .error (.columnNotExist holder.id m.fkColumnId)
      if pks.contains m.pkColumnId then
        .error (.relationshipColumnMappingDuplicate r.name m.pkColumnId)
      else if fks.contains m.fkColumnId then
        .error (.relationshipColumnNotUnique r.name m.fkColumnId)
      else if !typesCompatible fkColumn referenced then
        .error (.relationshipColumnTypeIncompatible fkColumn.name referenced.name)
      else go ms (m.pkColumnId :: pks) (m.fkColumnId :: fks)

/-- Checks the mappings of a new relationship in order: the provider column exists, each column
is mapped once, and an existing holder column has a suitable type. -/
def RelationshipDraft.checkMappings (d : RelationshipDraft) (holder provider : Table) :
    Except DesignError Unit :=
  go d.columns [] []
where
  go : List MappingDraft → List Id → List Id → Except DesignError Unit
    | [], _, _ => .ok ()
    | m :: ms, pks, fks => do
      let some referenced := provider.column? m.pkColumnId
        | .error (.columnNotExist provider.id m.pkColumnId)
      if pks.contains m.pkColumnId then
        .error (.relationshipColumnMappingDuplicate d.name m.pkColumnId)
      else if fks.contains m.fkColumnId then
        .error (.relationshipColumnNotUnique d.name m.fkColumnId)
      else match holder.column? m.fkColumnId with
        | some existing =>
          if !typesCompatible existing referenced then
            .error (.relationshipColumnTypeIncompatible existing.name referenced.name)
          else go ms (m.pkColumnId :: pks) (m.fkColumnId :: fks)
        | none => go ms (m.pkColumnId :: pks) (m.fkColumnId :: fks)

/-- The spec attaching a mapping draft. -/
def MappingDraft.spec (m : MappingDraft) : FkSpec :=
  ⟨m.id, m.fkColumnId, m.fkColumnName, m.pkColumnId⟩

/-- Changes every relationship of the table with this id. -/
def Table.updateRelationships (relationshipId : Id) (f : Relationship → Relationship)
    (t : Table) : Table :=
  { t with relationships := t.relationships.map fun r => if r.id = relationshipId then f r else r }

/-- Holder columns that only this relationship keeps in the holder's key. -/
def Table.releasedKeyColumns (holder : Table) (r : Relationship) : List Id :=
  r.fkColumnIds.filter fun c =>
    holder.isKeyColumn c && !holder.relationships.any fun o =>
      o.id ≠ r.id && o.isIdentifying && o.mapsFkColumn c

namespace EditM

/-- The relationship with this id and its holder. -/
def relationship (schemaId relationshipId : Id) : EditM (Table × Relationship) := do
  match (← schema schemaId).relationship? relationshipId with
  | some found => pure found
  | none => throw (.relationshipNotExist relationshipId)

/-- The provider table of a relationship. -/
def provider (schemaId tableId : Id) : EditM Table := do
  match (← schema schemaId).table? tableId with
  | some t => pure t
  | none => throw (.relationshipTargetTableNotExist tableId)

/-- Changes the relationship with this id. The change is made in the first table with the
holder's id, which is the holder itself unless a malformed snapshot repeats a table id; when
that table does not hold the relationship, the relationship counts as missing. -/
def modifyRelationship (schemaId relationshipId : Id) (f : Relationship → Relationship) :
    EditM Unit := do
  let (holder, _) ← relationship schemaId relationshipId
  let t ← table schemaId holder.id
  if !t.relationships.any (·.id = relationshipId) then
    throw (.relationshipNotExist relationshipId)
  putTable schemaId holder.id
    { t with relationships := updateFirst (·.id = relationshipId) f t.relationships }

/-- Checks a stored relationship as if it were being created now. -/
def revalidateRelationship (schemaId relationshipId : Id) : EditM Unit := do
  let (holder, r) ← relationship schemaId relationshipId
  checkRelationshipName schemaId holder.id r.name (some relationshipId)
  let p ← provider schemaId r.pkTableId
  if r.columns.isEmpty then throw (.relationshipEmptyColumn r.name)
  check (r.checkMappings holder p)
  if r.isIdentifying then
    check ((← schema schemaId).ensureAcyclic holder.id p.id (some relationshipId))
  if r.usesSetNull then
    let blocking := (r.columns.find? fun m => !holder.isNullable m.fkColumnId).bind
      fun m => holder.column? m.fkColumnId
    if let some c := blocking then
      throw (.relationshipSetNullRequiresNullable r.name c.name)

/-- Maps every unmapped key column of the provider, puts the holder columns into the holder's
key, and propagates the new key columns. -/
def completeIdentifying (schemaId relationshipId : Id) : EditM Unit := do
  let (holder, r) ← relationship schemaId relationshipId
  let providerId := r.pkTableId
  let missing := (← provider schemaId providerId).keyColumns.filter (!r.mapsPkColumn ·)
  missing.forM fun pk => do
    let _ ← attachForeignKey schemaId holder.id relationshipId providerId (← freshSpec pk)
  let (holder, r) ← relationship schemaId relationshipId
  let fks := r.fkColumnIds
  let newKeys := fks.filter (!holder.isKeyColumn ·)
  addToPrimaryKey schemaId holder.id fks
  if !newKeys.isEmpty then
    let _ ← propagateKeys schemaId holder.id newKeys

/-- Detaches holder columns that no relationship of the holder maps any more, with what was
derived from them. -/
def releaseFkColumns (schemaId holderId : Id) (fks : List Id) : EditM Unit := do
  let holder ← table schemaId holderId
  let orphaned := fks.filter fun c => !holder.relationships.any (·.mapsFkColumn c)
  if !orphaned.isEmpty then
    let _ ← cascadeKeyRemoval schemaId (orphaned.map (holderId, ·)) false
    modifyTable schemaId holderId fun t => orphaned.foldl (fun t c => (t.detachColumn c).1) t

/-- Creates a relationship and its holder columns; an identifying one completes the key. -/
def createRelationship (schemaId : Id) (d : RelationshipDraft) : EditM Unit := do
  let holder ← table schemaId d.fkTableId
  let p ← provider schemaId d.pkTableId
  checkRelationshipName schemaId d.fkTableId d.name none
  ensureFreshId "relationship" d.id
  if d.columns.isEmpty then throw (.relationshipEmptyColumn d.name)
  check (d.checkMappings holder p)
  if d.kind = .identifying then
    check ((← schema schemaId).ensureAcyclic d.fkTableId d.pkTableId none)
  let r : Relationship := ⟨d.id, d.fkTableId, d.pkTableId, d.name, d.kind, d.cardinality,
    d.onDelete, d.onUpdate, []⟩
  modifyTable schemaId d.fkTableId fun t => { t with relationships := t.relationships ++ [r] }
  d.columns.forM fun m => do
    let _ ← attachForeignKey schemaId d.fkTableId d.id d.pkTableId m.spec
  if d.kind = .identifying then completeIdentifying schemaId d.id
  revalidateRelationship schemaId d.id

/-- Deletes a relationship together with the holder columns only it mapped. -/
def deleteRelationship (schemaId relationshipId : Id) : EditM Unit := do
  let (holder, _) ← relationship schemaId relationshipId
  let t ← table schemaId holder.id
  match t.relationships.find? (·.id = relationshipId) with
  | none => pure ()
  | some removed =>
    putTable schemaId holder.id
      { t with relationships := t.relationships.eraseP (·.id = relationshipId) }
    emit ⟨.debug, .relationships, "relationship removed", [("relationship", .text removed.name)]⟩
    releaseFkColumns schemaId holder.id removed.fkColumnIds

/-- Renames a relationship. -/
def changeRelationshipName (schemaId relationshipId : Id) (name : String) : EditM Unit := do
  let (holder, _) ← relationship schemaId relationshipId
  checkRelationshipName schemaId holder.id name (some relationshipId)
  modifyRelationship schemaId relationshipId fun r => { r with name }

/-- Changes the cardinality of a relationship. -/
def changeRelationshipCardinality (schemaId relationshipId : Id) (cardinality : Cardinality) :
    EditM Unit := do
  modifyRelationship schemaId relationshipId fun r => { r with cardinality }
  revalidateRelationship schemaId relationshipId

/-- Changes the referential actions of a relationship. -/
def changeRelationshipActions (schemaId relationshipId : Id)
    (onDelete onUpdate : ReferentialAction) : EditM Unit := do
  modifyRelationship schemaId relationshipId fun r => { r with onDelete, onUpdate }
  revalidateRelationship schemaId relationshipId

/-- Makes a relationship identifying or non-identifying. -/
def changeRelationshipKind (schemaId relationshipId : Id) (kind : RelationshipKind) :
    EditM Unit := do
  let (holder, r) ← relationship schemaId relationshipId
  if r.kind = kind then return
  match kind with
  | .identifying =>
    check ((← schema schemaId).ensureAcyclic holder.id r.pkTableId (some relationshipId))
    modifyRelationship schemaId relationshipId fun r => { r with kind }
    completeIdentifying schemaId relationshipId
  | .nonIdentifying =>
    let released := holder.releasedKeyColumns r
    modifyRelationship schemaId relationshipId fun r => { r with kind }
    removeFromPrimaryKey schemaId holder.id released
    let _ ← cascadeKeyRemoval schemaId (released.map (holder.id, ·)) true
  revalidateRelationship schemaId relationshipId

/-- Maps one more provider column; on an identifying relationship the holder column joins the
holder's key. -/
def addColumnToRelationship (schemaId relationshipId : Id) (m : MappingDraft) : EditM Unit := do
  let (holder, r) ← relationship schemaId relationshipId
  let p ← provider schemaId r.pkTableId
  let some referenced := p.column? m.pkColumnId
    | throw (.columnNotExist p.id m.pkColumnId)
  if r.mapsPkColumn m.pkColumnId then
    throw (.relationshipColumnMappingDuplicate r.name m.pkColumnId)
  if r.mapsFkColumn m.fkColumnId then
    throw (.relationshipColumnNotUnique r.name m.fkColumnId)
  if let some existing := holder.column? m.fkColumnId then
    if !typesCompatible existing referenced then
      throw (.relationshipColumnTypeIncompatible existing.name referenced.name)
  let fk ← attachForeignKey schemaId holder.id relationshipId p.id m.spec
  if r.isIdentifying && !(← table schemaId holder.id).isKeyColumn fk then
    addToPrimaryKey schemaId holder.id [fk]
    let _ ← propagateKeys schemaId holder.id [fk]
  revalidateRelationship schemaId relationshipId

/-- Drops one mapping; the last mapping takes the relationship with it. -/
def removeColumnFromRelationship (schemaId relationshipId mappingId : Id) : EditM Unit := do
  let (holder, r) ← relationship schemaId relationshipId
  let some m := r.columns.find? (·.id = mappingId)
    | throw (.relationshipColumnNotExist relationshipId mappingId)
  if r.isIdentifying then
    let p ← provider schemaId r.pkTableId
    if p.isKeyColumn m.pkColumnId then
      throw (.foreignKeyColumnRequired (holder.columnLabel m.fkColumnId) r.name)
  let strip (r : Relationship) : Relationship :=
    let kept := r.columns.filter (·.id ≠ mappingId)
    { r with columns := renumber (fun m n => { m with seqNo := n }) kept }
  modifyTable schemaId holder.id fun t =>
    let t := t.updateRelationships relationshipId strip
    { t with relationships := t.relationships.filter (!·.columns.isEmpty) }
  releaseFkColumns schemaId holder.id [m.fkColumnId]

end EditM

end SchemaDesign
