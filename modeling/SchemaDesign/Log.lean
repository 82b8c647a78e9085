import SchemaDesign.Edit.Event
import SchemaDesign.Json.Value

/-!
# Events as JSON

An event is written as `{"level", "target", "fields"}`, where `fields` holds the message under
`message` together with the event's own fields: counts as numbers, everything else as strings.
-/

namespace SchemaDesign

namespace FieldValue

/-- The value as JSON. -/
def toJson : FieldValue → Json
  | .text s => .str s
  | .word s => .str s
  | .num n => .nat n

end FieldValue

namespace Event

/-- The message and the fields as one object. -/
def fieldsJson (e : Event) : Json :=
  .obj (("message", .str e.message) :: e.fields.map fun (k, v) => (k, v.toJson))

/-- The event as JSON. -/
def toJson (e : Event) : Json :=
  .obj [("level", .str e.level.name), ("target", .str e.target.path), ("fields", e.fieldsJson)]

end Event

end SchemaDesign
