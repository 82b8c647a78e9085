import SchemaDesign.Model.Basic
import SchemaDesign.Json.Decode

/-!
# Snapshots as JSON

Each entity is an object with one member per field, named in snake case. On output every field is
written, an absent optional one as `null`; on input an optional field may be absent or `null`,
members with unknown names are ignored, and numbers of positions and sequence numbers must fit
in 32 bits. A length or precision is `{"length": n}` or
`{"precision_scale": {"precision": p, "scale": s}}`.
-/

namespace SchemaDesign

namespace LengthScale

/-- The descriptor as JSON. -/
def toJson : LengthScale → Json
  | .length n => .obj [("length", .nat n)]
  | .precisionScale p s =>
    .obj [("precision_scale", .obj [("precision", .nat p), ("scale", .nat s)])]

/-- Reads the member of a descriptor object: its name says which descriptor it holds. -/
def member (k : String) (j : Json) : Except DecodeError LengthScale :=
  if k = "length" then ((Decode.u32 j).map .length).mapError (.inside 0)
  else if k = "precision_scale" then Except.mapError (.inside 0) do
    let fs ← Decode.record "struct variant LengthScale::PrecisionScale" 2 j
    Decode.finish fs <| Decoded.pure LengthScale.precisionScale
      |>.ap (Decode.req fs 0 "precision" Decode.u32)
      |>.ap (Decode.req fs 1 "scale" Decode.u32)
  else .error (.atKey 0 (.unknownVariant k ["length", "precision_scale"]))

/-- Reads a descriptor: an object with exactly one of the two members. -/
def decode : Decoder LengthScale
  | .obj fs => Decode.tagged member fs
  | .str "length" => .error (.other "invalid type: unit variant, expected newtype variant")
  | .str "precision_scale" => .error (.other "invalid type: unit variant, expected struct variant")
  | .str s => .error (.unknownVariant s ["length", "precision_scale"])
  | j => .error (.notVariant j.unexpected)

end LengthScale

namespace Id

/-- An id as JSON. -/
def toJson (i : Id) : Json := .str i.text

/-- Reads an id. -/
def decode : Decoder Id := fun j => (Decode.string j).map Id.mk

end Id

/-- Reads a vendor. -/
def Vendor.decode : Decoder Vendor :=
  Decode.choice (Vendor.all.map Vendor.code) Vendor.ofCode?

/-- Reads an index type. -/
def IndexType.decode : Decoder IndexType :=
  Decode.choice (IndexType.all.map IndexType.code) IndexType.ofCode?

/-- Reads a sort direction. -/
def SortDir.decode : Decoder SortDir := Decode.choice ["ASC", "DESC"] SortDir.ofCode?

/-- Reads a constraint kind. -/
def ConstraintKind.decode : Decoder ConstraintKind :=
  Decode.choice (ConstraintKind.all.map ConstraintKind.code) ConstraintKind.ofCode?

/-- Reads a relationship kind. -/
def RelationshipKind.decode : Decoder RelationshipKind :=
  Decode.choice ["IDENTIFYING", "NON_IDENTIFYING"] RelationshipKind.ofCode?

/-- Reads a cardinality. -/
def Cardinality.decode : Decoder Cardinality :=
  Decode.choice ["ONE_TO_ONE", "ONE_TO_ZERO_OR_ONE", "ONE_TO_MANY", "ONE_TO_ZERO_OR_MANY"]
    Cardinality.ofCode?

/-- Reads a referential action. -/
def ReferentialAction.decode : Decoder ReferentialAction :=
  Decode.choice ["NO_ACTION", "RESTRICT", "CASCADE", "SET_NULL", "SET_DEFAULT"]
    ReferentialAction.ofCode?

namespace Column

/-- The column as JSON. -/
def toJson (c : Column) : Json :=
  .obj [("id", c.id.toJson), ("table_id", c.tableId.toJson), ("name", .str c.name),
    ("ordinal_position", .nat c.ordinalPosition), ("data_type", .optStr c.dataType),
    ("length_scale", .opt (c.lengthScale.map LengthScale.toJson)),
    ("is_auto_increment", .bool c.isAutoIncrement), ("charset", .optStr c.charset),
    ("collation", .optStr c.collation), ("comment", .optStr c.comment)]

/-- Reads a column. -/
def decode : Decoder Column := fun j => do
  let fs ← Decode.record "struct Column" 10 j
  Decode.finish fs <| Decoded.pure Column.mk
    |>.ap (Decode.req fs 0 "id" Id.decode)
    |>.ap (Decode.req fs 1 "table_id" Id.decode)
    |>.ap (Decode.req fs 2 "name" Decode.string)
    |>.ap (Decode.req fs 3 "ordinal_position" Decode.u32)
    |>.ap (Decode.opt fs 4 "data_type" Decode.string)
    |>.ap (Decode.opt fs 5 "length_scale" LengthScale.decode)
    |>.ap (Decode.req fs 6 "is_auto_increment" Decode.bool)
    |>.ap (Decode.opt fs 7 "charset" Decode.string)
    |>.ap (Decode.opt fs 8 "collation" Decode.string)
    |>.ap (Decode.opt fs 9 "comment" Decode.string)

end Column

namespace IndexColumn

/-- The index column as JSON. -/
def toJson (c : IndexColumn) : Json :=
  .obj [("id", c.id.toJson), ("column_id", c.columnId.toJson), ("seq_no", .nat c.seqNo),
    ("sort_dir", .str c.sortDir.code)]

/-- Reads an index column. -/
def decode : Decoder IndexColumn := fun j => do
  let fs ← Decode.record "struct IndexColumn" 4 j
  Decode.finish fs <| Decoded.pure IndexColumn.mk
    |>.ap (Decode.req fs 0 "id" Id.decode)
    |>.ap (Decode.req fs 1 "column_id" Id.decode)
    |>.ap (Decode.req fs 2 "seq_no" Decode.u32)
    |>.ap (Decode.req fs 3 "sort_dir" SortDir.decode)

end IndexColumn

namespace Index

/-- The index as JSON. -/
def toJson (i : Index) : Json :=
  .obj [("id", i.id.toJson), ("table_id", i.tableId.toJson), ("name", .str i.name),
    ("index_type", .str i.indexType.code), ("columns", .arr (i.columns.map IndexColumn.toJson))]

/-- Reads an index. -/
def decode : Decoder Index := fun j => do
  let fs ← Decode.record "struct Index" 5 j
  Decode.finish fs <| Decoded.pure Index.mk
    |>.ap (Decode.req fs 0 "id" Id.decode)
    |>.ap (Decode.req fs 1 "table_id" Id.decode)
    |>.ap (Decode.req fs 2 "name" Decode.string)
    |>.ap (Decode.req fs 3 "index_type" IndexType.decode)
    |>.ap (Decode.req fs 4 "columns" (Decode.list IndexColumn.decode))

end Index

namespace ConstraintColumn

/-- The constraint column as JSON. -/
def toJson (c : ConstraintColumn) : Json :=
  .obj [("id", c.id.toJson), ("column_id", c.columnId.toJson), ("seq_no", .nat c.seqNo)]

/-- Reads a constraint column. -/
def decode : Decoder ConstraintColumn := fun j => do
  let fs ← Decode.record "struct ConstraintColumn" 3 j
  Decode.finish fs <| Decoded.pure ConstraintColumn.mk
    |>.ap (Decode.req fs 0 "id" Id.decode)
    |>.ap (Decode.req fs 1 "column_id" Id.decode)
    |>.ap (Decode.req fs 2 "seq_no" Decode.u32)

end ConstraintColumn

namespace Constraint

/-- The constraint as JSON. -/
def toJson (k : Constraint) : Json :=
  .obj [("id", k.id.toJson), ("table_id", k.tableId.toJson), ("name", .str k.name),
    ("kind", .str k.kind.code), ("check_expr", .optStr k.checkExpr),
    ("default_expr", .optStr k.defaultExpr),
    ("columns", .arr (k.columns.map ConstraintColumn.toJson))]

/-- Reads a constraint. -/
def decode : Decoder Constraint := fun j => do
  let fs ← Decode.record "struct Constraint" 7 j
  Decode.finish fs <| Decoded.pure Constraint.mk
    |>.ap (Decode.req fs 0 "id" Id.decode)
    |>.ap (Decode.req fs 1 "table_id" Id.decode)
    |>.ap (Decode.req fs 2 "name" Decode.string)
    |>.ap (Decode.req fs 3 "kind" ConstraintKind.decode)
    |>.ap (Decode.opt fs 4 "check_expr" Decode.string)
    |>.ap (Decode.opt fs 5 "default_expr" Decode.string)
    |>.ap (Decode.req fs 6 "columns" (Decode.list ConstraintColumn.decode))

end Constraint

namespace KeyMapping

/-- The mapping as JSON. -/
def toJson (m : KeyMapping) : Json :=
  .obj [("id", m.id.toJson), ("fk_column_id", m.fkColumnId.toJson),
    ("pk_column_id", m.pkColumnId.toJson), ("seq_no", .nat m.seqNo)]

/-- Reads a mapping. -/
def decode : Decoder KeyMapping := fun j => do
  let fs ← Decode.record "struct RelationshipColumn" 4 j
  Decode.finish fs <| Decoded.pure KeyMapping.mk
    |>.ap (Decode.req fs 0 "id" Id.decode)
    |>.ap (Decode.req fs 1 "fk_column_id" Id.decode)
    |>.ap (Decode.req fs 2 "pk_column_id" Id.decode)
    |>.ap (Decode.req fs 3 "seq_no" Decode.u32)

end KeyMapping

namespace Relationship

/-- The relationship as JSON. -/
def toJson (r : Relationship) : Json :=
  .obj [("id", r.id.toJson), ("fk_table_id", r.fkTableId.toJson),
    ("pk_table_id", r.pkTableId.toJson), ("name", .str r.name), ("kind", .str r.kind.code),
    ("cardinality", .str r.cardinality.code), ("on_delete", .str r.onDelete.code),
    ("on_update", .str r.onUpdate.code), ("columns", .arr (r.columns.map KeyMapping.toJson))]

/-- Reads a relationship. -/
def decode : Decoder Relationship := fun j => do
  let fs ← Decode.record "struct Relationship" 9 j
  Decode.finish fs <| Decoded.pure Relationship.mk
    |>.ap (Decode.req fs 0 "id" Id.decode)
    |>.ap (Decode.req fs 1 "fk_table_id" Id.decode)
    |>.ap (Decode.req fs 2 "pk_table_id" Id.decode)
    |>.ap (Decode.req fs 3 "name" Decode.string)
    |>.ap (Decode.req fs 4 "kind" RelationshipKind.decode)
    |>.ap (Decode.req fs 5 "cardinality" Cardinality.decode)
    |>.ap (Decode.req fs 6 "on_delete" ReferentialAction.decode)
    |>.ap (Decode.req fs 7 "on_update" ReferentialAction.decode)
    |>.ap (Decode.req fs 8 "columns" (Decode.list KeyMapping.decode))

end Relationship

namespace Table

/-- The table as JSON. -/
def toJson (t : Table) : Json :=
  .obj [("id", t.id.toJson), ("schema_id", t.schemaId.toJson), ("name", .str t.name),
    ("comment", .optStr t.comment), ("columns", .arr (t.columns.map Column.toJson)),
    ("indexes", .arr (t.indexes.map Index.toJson)),
    ("constraints", .arr (t.constraints.map Constraint.toJson)),
    ("relationships", .arr (t.relationships.map Relationship.toJson))]

/-- Reads a table. -/
def decode : Decoder Table := fun j => do
  let fs ← Decode.record "struct Table" 8 j
  Decode.finish fs <| Decoded.pure Table.mk
    |>.ap (Decode.req fs 0 "id" Id.decode)
    |>.ap (Decode.req fs 1 "schema_id" Id.decode)
    |>.ap (Decode.req fs 2 "name" Decode.string)
    |>.ap (Decode.opt fs 3 "comment" Decode.string)
    |>.ap (Decode.req fs 4 "columns" (Decode.list Column.decode))
    |>.ap (Decode.req fs 5 "indexes" (Decode.list Index.decode))
    |>.ap (Decode.req fs 6 "constraints" (Decode.list Constraint.decode))
    |>.ap (Decode.req fs 7 "relationships" (Decode.list Relationship.decode))

end Table

namespace Schema

/-- The schema as JSON. -/
def toJson (s : Schema) : Json :=
  .obj [("id", s.id.toJson), ("database_id", s.databaseId.toJson), ("name", .str s.name),
    ("vendor", .str s.vendor.code), ("charset", .optStr s.charset),
    ("collation", .optStr s.collation), ("tables", .arr (s.tables.map Table.toJson))]

/-- Reads a schema. -/
def decode : Decoder Schema := fun j => do
  let fs ← Decode.record "struct Schema" 7 j
  Decode.finish fs <| Decoded.pure Schema.mk
    |>.ap (Decode.req fs 0 "id" Id.decode)
    |>.ap (Decode.req fs 1 "database_id" Id.decode)
    |>.ap (Decode.req fs 2 "name" Decode.string)
    |>.ap (Decode.req fs 3 "vendor" Vendor.decode)
    |>.ap (Decode.opt fs 4 "charset" Decode.string)
    |>.ap (Decode.opt fs 5 "collation" Decode.string)
    |>.ap (Decode.req fs 6 "tables" (Decode.list Table.decode))

end Schema

namespace Database

/-- The snapshot as JSON. -/
def toJson (db : Database) : Json :=
  .obj [("id", db.id.toJson), ("schemas", .arr (db.schemas.map Schema.toJson))]

/-- Reads a snapshot. -/
def decode : Decoder Database := fun j => do
  let fs ← Decode.record "struct Database" 2 j
  Decode.finish fs <| Decoded.pure Database.mk
    |>.ap (Decode.req fs 0 "id" Id.decode)
    |>.ap (Decode.req fs 1 "schemas" (Decode.list Schema.decode))

end Database

end SchemaDesign
