import SchemaDesign.Edit.Session

/-!
# Keys and the entries built on columns

How a table changes when a column leaves it, and how its primary key grows and shrinks.

- `Table.detachColumn` removes a column and every index, constraint and mapping entry on it,
  renumbers what remains, drops what became empty, and prunes redundant keys.
- `Table.pruneRedundantKeys` drops later indexes and constraints that repeat an earlier
  definition, and UNIQUE constraints whose column set is the primary key's.
- `EditM.addToPrimaryKey` appends columns to the key, creating `pk_<table>` when there is none,
  and refuses a key that a UNIQUE constraint restates.
-/

namespace SchemaDesign

/-- Keeps the first of the items with equal keys. -/
def dedupBy {α β : Type} [DecidableEq β] (key : α → β) (xs : List α) : List α :=
  (xs.foldl (fun (acc : List β × List α) x =>
    if acc.1.contains (key x) then acc else (key x :: acc.1, x :: acc.2)) ([], [])).2.reverse

/-- Whether two lists hold the same items, ignoring order and repetition. -/
def sameItems {α : Type} [DecidableEq α] (xs ys : List α) : Bool :=
  xs.all (ys.contains ·) && ys.all (xs.contains ·)

/-- The index without its entries on a column, renumbered. -/
def Index.withoutColumn (i : Index) (columnId : Id) : Index :=
  let kept := i.columns.filter (·.columnId ≠ columnId)
  { i with columns := renumber (fun c n => { c with seqNo := n }) kept }

/-- The constraint without its entries on any of the columns, renumbered. -/
def Constraint.withoutColumns (k : Constraint) (columnIds : List Id) : Constraint :=
  let kept := k.columns.filter (!columnIds.contains ·.columnId)
  { k with columns := renumber (fun c n => { c with seqNo := n }) kept }

/-- The constraint without its entries on a column, renumbered. -/
def Constraint.withoutColumn (k : Constraint) (columnId : Id) : Constraint :=
  k.withoutColumns [columnId]

/-- The relationship without its mappings from a holder column, renumbered. -/
def Relationship.withoutFkColumn (r : Relationship) (columnId : Id) : Relationship :=
  let kept := r.columns.filter (·.fkColumnId ≠ columnId)
  { r with columns := renumber (fun m n => { m with seqNo := n }) kept }

namespace Table

/-- Numbers the columns 1, 2, … in list order. -/
def resequenceColumns (t : Table) : Table :=
  { t with columns := renumber (fun c n => { c with ordinalPosition := n }) t.columns }

/-- The UNIQUE constraint whose column set is the primary key's, if there is a key. -/
def uniqueRestatingKey? (t : Table) : Option Constraint :=
  match t.primaryKey? with
  | none => none
  | some pk => t.constraints.find? fun k => k.kind = .unique && sameItems k.columnIds pk.columnIds

/-- Drops UNIQUE constraints that restate the key, one at a time; `fuel` bounds the rounds. -/
def dropRestatingKeys : Nat → Table → Table
  | 0, t => t
  | fuel + 1, t =>
    match t.uniqueRestatingKey? with
    | none => t
    | some k => dropRestatingKeys fuel { t with constraints := t.constraints.filter (·.id ≠ k.id) }

/-- Drops later repeats of an index or constraint definition, and UNIQUE constraints that
restate the primary key. -/
def pruneRedundantKeys (t : Table) : Table :=
  let t := { t with indexes := dedupBy Index.signature t.indexes }
  -- each round removes at least one constraint
  let t := dropRestatingKeys (t.constraints.length + 1) t
  { t with constraints := dedupBy Constraint.signature t.constraints }

/-- Refuses a primary key whose column set a UNIQUE constraint restates. -/
def ensureKeyNotRestated (t : Table) : Except DesignError Unit :=
  match t.uniqueRestatingKey? with
  | some k => .error (.uniqueSameAsPrimaryKey k.name)
  | none => .ok ()

/-- Removes a column and every entry built on it; `true` when the column was there. -/
def detachColumn (t : Table) (columnId : Id) : Table × Bool :=
  if t.columns.any (·.id = columnId) then
    let columns := renumber (fun c n => { c with ordinalPosition := n })
      (t.columns.eraseP (·.id = columnId))
    let indexes := (t.indexes.map (·.withoutColumn columnId)).filter (!·.columns.isEmpty)
    let constraints := (t.constraints.map (·.withoutColumn columnId)).filter (!·.columns.isEmpty)
    let relationships := (t.relationships.map (·.withoutFkColumn columnId)).filter
      (!·.columns.isEmpty)
    ({ t with columns, indexes, constraints, relationships }.pruneRedundantKeys, true)
  else (t, false)

end Table

namespace EditM

/-- A constraint name from `base` that no constraint of the schema has. -/
def freshConstraintName (schemaId : Id) (base : String) : EditM String := do
  let s ← schema schemaId
  let cfg ← config
  return uniqueName base cfg.naming.constraint.max (s.constraints.map (·.name))

/-- Appends a column to a key that does not hold it yet, as a new last entry. -/
def appendKeyColumn (pk : Constraint) (c : Id) : EditM Constraint := do
  if pk.containsColumn c then pure pk
  else
    let id ← mint
    pure { pk with columns := pk.columns ++ [⟨id, c, pk.columns.length + 1⟩] }

/-- The table `tableId` as read, given an empty key `pk_<table>` when it has no primary key. -/
def withPrimaryKey (schemaId tableId : Id) (t : Table) : EditM Table :=
  match t.primaryKey? with
  | some _ => pure t
  | none => do
    let name ← freshConstraintName schemaId ("pk_" ++ sanitize t.name)
    let id ← mint
    pure { t with constraints := t.constraints ++
      [⟨id, tableId, name, .primaryKey, none, none, []⟩] }

/-- The table with the columns appended to its primary key, if it has one; columns already in
the key are skipped. -/
def extendPrimaryKey (t : Table) (columnIds : List Id) : EditM Table :=
  match t.primaryKey? with
  | none => pure t
  | some pk => do
    let pk ← columnIds.foldlM appendKeyColumn pk
    pure { t with constraints := updateFirst (·.kind = .primaryKey) (fun _ => pk) t.constraints }

/-- Appends columns to the table's key, creating `pk_<table>` when the table has none; columns
already in the key are skipped. Refuses when a UNIQUE constraint then restates the key. -/
def addToPrimaryKey (schemaId tableId : Id) (columnIds : List Id) : EditM Unit := do
  let t ← table schemaId tableId
  let t ← withPrimaryKey schemaId tableId t
  let t ← extendPrimaryKey t columnIds
  putTable schemaId tableId t
  check t.ensureKeyNotRestated

/-- Removes columns from every primary key of the table, drops keys left empty, and prunes
redundant keys. -/
def removeFromPrimaryKey (schemaId tableId : Id) (columnIds : List Id) : EditM Unit :=
  modifyTable schemaId tableId fun t =>
    let constraints := t.constraints.map fun k =>
      if k.kind = .primaryKey then k.withoutColumns columnIds else k
    let constraints := constraints.filter fun k => !(k.kind = .primaryKey && k.columns.isEmpty)
    { t with constraints }.pruneRedundantKeys

end EditM

end SchemaDesign
