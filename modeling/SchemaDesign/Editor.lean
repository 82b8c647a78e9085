import SchemaDesign.Operation
import SchemaDesign.DesignError.Json

/-!
# The editor

The editor applies operations to snapshots, all or nothing: an operation either gives a new
snapshot or is refused, and then the snapshot it started from is still the design. A batch is
applied in order and stops at the first refusal.

Each operation reports what it did as events, closed by "operation applied" or "operation
rejected" with the refusal's code. Fresh ids come from a supply threaded through all calls, so
ids stay distinct across operations.
-/

namespace SchemaDesign

/-- What applying operations gave: the snapshot or the refusal, the events reported, and the
supply of fresh ids afterwards. -/
structure Outcome where
  result : Except DesignError Database
  events : List Event
  supply : IdSupply

namespace Editor

/-- The event closing an operation. -/
def closingEvent (op : Operation) : Except DesignError Unit → Event
  | .ok () => ⟨.debug, .editor, "operation applied", [("operation", .word op.name)]⟩
  | .error e => ⟨.debug, .editor, "operation rejected",
      [("operation", .word op.name), ("code", .word e.code)]⟩

/-- Applies one operation to a snapshot. -/
def apply (config : EditorConfig) (supply : IdSupply) (db : Database) (op : Operation) :
    Outcome :=
  match op.run.run { db, config, supply } with
  | .ok () st => ⟨.ok st.db, st.events ++ [closingEvent op (.ok ())], st.supply⟩
  | .error e st => ⟨.error e, st.events ++ [closingEvent op (.error e)], st.supply⟩

/-- Applies operations in order, stopping at the first refusal; the events of every operation
tried are kept. -/
def applyAll (config : EditorConfig) (supply : IdSupply) (db : Database) :
    List Operation → Outcome
  | [] => ⟨.ok db, [], supply⟩
  | op :: ops =>
    let first := apply config supply db op
    match first.result with
    | .error _ => first
    | .ok db' =>
      let rest := applyAll config first.supply db' ops
      { rest with events := first.events ++ rest.events }

end Editor

/-- The answer of a batch on the wire. -/
inductive Envelope where
  | success (db : Database)
  | failure (e : DesignError)

namespace Envelope

/-- The envelope of a batch result. -/
def ofResult : Except DesignError Database → Envelope
  | .ok db => .success db
  | .error e => .failure e

/-- `{"success": {"database"}}` or `{"failure": {"errors": [refusal]}}`. -/
def toJson : Envelope → Json
  | .success db => .obj [("success", .obj [("database", db.toJson)])]
  | .failure e => .obj [("failure", .obj [("errors", .arr [e.toJson])])]

end Envelope

end SchemaDesign
