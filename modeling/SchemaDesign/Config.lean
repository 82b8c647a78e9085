import SchemaDesign.Naming
import SchemaDesign.Json.Decode

/-!
# Editor settings

The bounds on name lengths for each kind of entity, and whether the last schema of a database
may be deleted. Every setting has a default: tables 1 to 20 characters, every other name 1 to
64, and deleting the last schema allowed.

As JSON, settings are `{"naming": {kind: {"min", "max"}}, "allow_delete_last_schema"}`; any
member may be absent and then keeps its default, but a bounds object needs both numbers.
-/

namespace SchemaDesign

/-- Length bounds per kind of name. -/
structure NamingRules where
  schema : LengthBounds := ⟨1, 64⟩
  table : LengthBounds := ⟨1, 20⟩
  column : LengthBounds := ⟨1, 64⟩
  index : LengthBounds := ⟨1, 64⟩
  constraint : LengthBounds := ⟨1, 64⟩
  relationship : LengthBounds := ⟨1, 64⟩
  deriving DecidableEq, Repr, Inhabited

/-- The settings of the editor. -/
structure EditorConfig where
  naming : NamingRules := {}
  allowDeleteLastSchema : Bool := true
  deriving DecidableEq, Repr, Inhabited

namespace LengthBounds

/-- The bounds as JSON. -/
def toJson (b : LengthBounds) : Json := .obj [("min", .nat b.min), ("max", .nat b.max)]

/-- Reads bounds: both numbers are required. -/
def decode : Decoder LengthBounds := fun j => do
  let fs ← Decode.record "struct LengthBounds" 2 j
  Decode.finish fs <| Decoded.pure LengthBounds.mk
    |>.ap (Decode.req fs 0 "min" Decode.usize)
    |>.ap (Decode.req fs 1 "max" Decode.usize)

end LengthBounds

namespace NamingRules

/-- The rules as JSON. -/
def toJson (n : NamingRules) : Json :=
  .obj [("schema", n.schema.toJson), ("table", n.table.toJson), ("column", n.column.toJson),
    ("index", n.index.toJson), ("constraint", n.constraint.toJson),
    ("relationship", n.relationship.toJson)]

/-- Reads rules; an absent kind keeps its default bounds. -/
def decode : Decoder NamingRules := fun j => do
  let fs ← Decode.record "struct NamingRules" 6 j
  let d : NamingRules := {}
  Decode.finish fs <| Decoded.pure NamingRules.mk
    |>.ap (Decode.withDefault fs 0 "schema" LengthBounds.decode d.schema)
    |>.ap (Decode.withDefault fs 1 "table" LengthBounds.decode d.table)
    |>.ap (Decode.withDefault fs 2 "column" LengthBounds.decode d.column)
    |>.ap (Decode.withDefault fs 3 "index" LengthBounds.decode d.index)
    |>.ap (Decode.withDefault fs 4 "constraint" LengthBounds.decode d.constraint)
    |>.ap (Decode.withDefault fs 5 "relationship" LengthBounds.decode d.relationship)

end NamingRules

namespace EditorConfig

/-- The settings as JSON. -/
def toJson (c : EditorConfig) : Json :=
  .obj [("naming", c.naming.toJson), ("allow_delete_last_schema", .bool c.allowDeleteLastSchema)]

/-- Reads settings; absent members keep their defaults. -/
def decode : Decoder EditorConfig := fun j => do
  let fs ← Decode.record "struct EditorConfig" 2 j
  Decode.finish fs <| Decoded.pure EditorConfig.mk
    |>.ap (Decode.withDefault fs 0 "naming" NamingRules.decode {})
    |>.ap (Decode.withDefault fs 1 "allow_delete_last_schema" Decode.bool true)

end EditorConfig

end SchemaDesign
