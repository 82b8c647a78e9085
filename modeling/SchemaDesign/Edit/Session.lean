import SchemaDesign.Model.Supply
import SchemaDesign.Config
import SchemaDesign.DesignError
import SchemaDesign.Edit.Event

/-!
# Edit sessions

An operation works on a session: the snapshot being edited, the settings, the supply of fresh
ids, and the events reported so far. A step of an operation either continues with a new
session or refuses; a refusal keeps the events reported before it, and the caller discards the
edited snapshot.

Entities are found by id with the snapshot's first-match lookups, and a change to an entity
changes the entity those lookups find.
-/

namespace SchemaDesign

/-- Replaces the first item that satisfies `p` by its image under `f`. -/
def updateFirst {α : Type} (p : α → Bool) (f : α → α) : List α → List α
  | [] => []
  | x :: xs => if p x then f x :: xs else x :: updateFirst p f xs

/-- Renumbers a sequence 1, 2, … in list order. -/
def renumber {α : Type} (set : α → Nat → α) (xs : List α) : List α :=
  (xs.zipIdx 1).map fun (x, n) => set x n

/-- The state of an edit. -/
structure Session where
  db : Database
  config : EditorConfig
  supply : IdSupply
  events : List Event := []

/-- A step of an edit. -/
abbrev EditM := EStateM DesignError Session

namespace EditM

/-- The settings. -/
def config : EditM EditorConfig := do return (← get).config

/-- The snapshot as edited so far. -/
def database : EditM Database := do return (← get).db

/-- A fresh id: the first id of the supply that the snapshot does not mention. The supply's ids
differ from each other, so one of the next `n + 1` is free when the snapshot mentions `n` ids;
the refusal is for a snapshot that mentions every id the supply has left. -/
def mint : EditM Id := do
  let st ← get
  let used := st.db.mentionedIds
  match st.supply.mintUnused used (used.length + 1) with
  | some (i, supply) =>
    set { st with supply }
    pure i
  | none => throw (.entityIdNotUnique "id" st.supply.peek)

/-- Reports an event. -/
def emit (e : Event) : EditM Unit := modify fun st => { st with events := st.events ++ [e] }

/-- The schema with this id. -/
def schema (schemaId : Id) : EditM Schema := do
  match (← database).schema? schemaId with
  | some s => pure s
  | none => throw (.schemaNotExist schemaId)

/-- The table with this id in the schema. -/
def table (schemaId tableId : Id) : EditM Table := do
  match (← schema schemaId).table? tableId with
  | some t => pure t
  | none => throw (.tableNotExist tableId)

/-- The column with this id in the table. -/
def column (schemaId tableId columnId : Id) : EditM Column := do
  match (← table schemaId tableId).column? columnId with
  | some c => pure c
  | none => throw (.columnNotExist tableId columnId)

/-- Replaces the snapshot. -/
def setDatabase (db : Database) : EditM Unit := modify fun st => { st with db }

/-- Changes the schema with this id. -/
def modifySchema (schemaId : Id) (f : Schema → Schema) : EditM Unit := do
  let _ ← schema schemaId
  let db ← database
  setDatabase { db with schemas := updateFirst (·.id = schemaId) f db.schemas }

/-- Changes the table with this id in the schema. -/
def modifyTable (schemaId tableId : Id) (f : Table → Table) : EditM Unit := do
  let _ ← table schemaId tableId
  modifySchema schemaId fun s => { s with tables := updateFirst (·.id = tableId) f s.tables }

/-- Replaces the table with this id in the schema. -/
def putTable (schemaId tableId : Id) (t : Table) : EditM Unit :=
  modifyTable schemaId tableId fun _ => t

/-- Refuses an id that an entity of the snapshot already has. -/
def ensureFreshId (entity : String) (id : Id) : EditM Unit := do
  if (← database).usesId id then throw (.entityIdNotUnique entity id)

/-- Runs a check that does not depend on the session. -/
def check (r : Except DesignError Unit) : EditM Unit :=
  match r with
  | .ok () => pure ()
  | .error e => throw e

/-- A value computed by a step that may refuse. -/
def ofExcept {α : Type} (r : Except DesignError α) : EditM α :=
  match r with
  | .ok a => pure a
  | .error e => throw e

end EditM

end SchemaDesign
