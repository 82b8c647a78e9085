import SchemaDesign.Operation
import SchemaDesign.Model.Codec

/-!
# Reading operations from JSON

An operation is an object whose `op` member names it in camel case (`"createTable"`); its other
members are its arguments, in snake case. Members the operation does not know are ignored.

The `op` member is read first, wherever it stands; then the arguments, as a record. Drafts are
records too, with the defaults their fields document.
-/

namespace SchemaDesign

/-- Reads a schema draft. -/
def SchemaDraft.decode : Decoder SchemaDraft := fun j => do
  let fs ← Decode.record "struct SchemaDraft" 5 j
  Decode.finish fs <| Decoded.pure SchemaDraft.mk
    |>.ap (Decode.req fs 0 "id" Id.decode)
    |>.ap (Decode.req fs 1 "name" Decode.string)
    |>.ap (Decode.req fs 2 "vendor" Vendor.decode)
    |>.ap (Decode.withDefault fs 3 "charset" (Decode.option Decode.string) none)
    |>.ap (Decode.withDefault fs 4 "collation" (Decode.option Decode.string) none)

/-- Reads a table draft. -/
def TableDraft.decode : Decoder TableDraft := fun j => do
  let fs ← Decode.record "struct TableDraft" 3 j
  Decode.finish fs <| Decoded.pure TableDraft.mk
    |>.ap (Decode.req fs 0 "id" Id.decode)
    |>.ap (Decode.req fs 1 "name" Decode.string)
    |>.ap (Decode.withDefault fs 2 "comment" (Decode.option Decode.string) none)

/-- Reads a column draft. -/
def ColumnDraft.decode : Decoder ColumnDraft := fun j => do
  let fs ← Decode.record "struct ColumnDraft" 11 j
  Decode.finish fs <| Decoded.pure ColumnDraft.mk
    |>.ap (Decode.req fs 0 "id" Id.decode)
    |>.ap (Decode.req fs 1 "name" Decode.string)
    |>.ap (Decode.withDefault fs 2 "data_type" (Decode.option Decode.string) none)
    |>.ap (Decode.withDefault fs 3 "length_scale" (Decode.option LengthScale.decode) none)
    |>.ap (Decode.withDefault fs 4 "position" (Decode.option Decode.u32) none)
    |>.ap (Decode.withDefault fs 5 "nullable" Decode.bool true)
    |>.ap (Decode.withDefault fs 6 "primary_key" Decode.bool false)
    |>.ap (Decode.withDefault fs 7 "auto_increment" Decode.bool false)
    |>.ap (Decode.withDefault fs 8 "charset" (Decode.option Decode.string) none)
    |>.ap (Decode.withDefault fs 9 "collation" (Decode.option Decode.string) none)
    |>.ap (Decode.withDefault fs 10 "comment" (Decode.option Decode.string) none)

/-- Reads an index column draft. -/
def IndexColumnDraft.decode : Decoder IndexColumnDraft := fun j => do
  let fs ← Decode.record "struct IndexColumnDraft" 3 j
  Decode.finish fs <| Decoded.pure IndexColumnDraft.mk
    |>.ap (Decode.req fs 0 "id" Id.decode)
    |>.ap (Decode.req fs 1 "column_id" Id.decode)
    |>.ap (Decode.withDefault fs 2 "sort_dir" SortDir.decode .asc)

/-- Reads an index draft. -/
def IndexDraft.decode : Decoder IndexDraft := fun j => do
  let fs ← Decode.record "struct IndexDraft" 4 j
  Decode.finish fs <| Decoded.pure IndexDraft.mk
    |>.ap (Decode.req fs 0 "id" Id.decode)
    |>.ap (Decode.req fs 1 "name" Decode.string)
    |>.ap (Decode.withDefault fs 2 "index_type" IndexType.decode .btree)
    |>.ap (Decode.req fs 3 "columns" (Decode.list IndexColumnDraft.decode))

/-- Reads a constraint column draft. -/
def ConstraintColumnDraft.decode : Decoder ConstraintColumnDraft := fun j => do
  let fs ← Decode.record "struct ConstraintColumnDraft" 2 j
  Decode.finish fs <| Decoded.pure ConstraintColumnDraft.mk
    |>.ap (Decode.req fs 0 "id" Id.decode)
    |>.ap (Decode.req fs 1 "column_id" Id.decode)

/-- Reads a constraint draft. -/
def ConstraintDraft.decode : Decoder ConstraintDraft := fun j => do
  let fs ← Decode.record "struct ConstraintDraft" 6 j
  Decode.finish fs <| Decoded.pure ConstraintDraft.mk
    |>.ap (Decode.req fs 0 "id" Id.decode)
    |>.ap (Decode.req fs 1 "name" Decode.string)
    |>.ap (Decode.req fs 2 "kind" ConstraintKind.decode)
    |>.ap (Decode.withDefault fs 3 "check_expr" (Decode.option Decode.string) none)
    |>.ap (Decode.withDefault fs 4 "default_expr" (Decode.option Decode.string) none)
    |>.ap (Decode.req fs 5 "columns" (Decode.list ConstraintColumnDraft.decode))

/-- Reads a mapping draft. -/
def MappingDraft.decode : Decoder MappingDraft := fun j => do
  let fs ← Decode.record "struct RelationshipColumnDraft" 4 j
  Decode.finish fs <| Decoded.pure MappingDraft.mk
    |>.ap (Decode.req fs 0 "id" Id.decode)
    |>.ap (Decode.req fs 1 "pk_column_id" Id.decode)
    |>.ap (Decode.req fs 2 "fk_column_id" Id.decode)
    |>.ap (Decode.withDefault fs 3 "fk_column_name" (Decode.option Decode.string) none)

/-- Reads a relationship draft. -/
def RelationshipDraft.decode : Decoder RelationshipDraft := fun j => do
  let fs ← Decode.record "struct RelationshipDraft" 9 j
  Decode.finish fs <| Decoded.pure RelationshipDraft.mk
    |>.ap (Decode.req fs 0 "id" Id.decode)
    |>.ap (Decode.req fs 1 "fk_table_id" Id.decode)
    |>.ap (Decode.req fs 2 "pk_table_id" Id.decode)
    |>.ap (Decode.req fs 3 "name" Decode.string)
    |>.ap (Decode.req fs 4 "kind" RelationshipKind.decode)
    |>.ap (Decode.withDefault fs 5 "cardinality" Cardinality.decode .oneToMany)
    |>.ap (Decode.withDefault fs 6 "on_delete" ReferentialAction.decode .noAction)
    |>.ap (Decode.withDefault fs 7 "on_update" ReferentialAction.decode .noAction)
    |>.ap (Decode.req fs 8 "columns" (Decode.list MappingDraft.decode))

namespace Operation

/-- The names of the operations, in camel case. -/
def tags : List String :=
  ["createSchema", "deleteSchema", "changeSchemaName", "createTable", "deleteTable",
   "changeTableName", "changeTableComment", "createColumn", "deleteColumn", "changeColumnName",
   "changeColumnType", "changeColumnPosition", "changeColumnNullable",
   "changeColumnAutoIncrement", "createIndex", "deleteIndex", "changeIndexName",
   "addColumnToIndex", "removeColumnFromIndex", "changeIndexColumnSortDir", "createConstraint",
   "deleteConstraint", "changeConstraintName", "addColumnToConstraint",
   "removeColumnFromConstraint", "createRelationship", "deleteRelationship",
   "changeRelationshipName", "changeRelationshipCardinality", "changeRelationshipKind",
   "changeRelationshipActions", "addColumnToRelationship", "removeColumnFromRelationship"]

/-- Reads the name of an operation. -/
def tagName : Decoder String := Decode.identifier tags fun s => if tags.contains s then some s else none

/-- Reads the members of an operation written as an object in order, the `i`-th next, the name
read so far in `tag`: the `op` member is read as the operation's name and a second one refused,
and every other member is read ahead, a number too large to hold in it refused as it is met. -/
def decodeTag : Nat → List (String × Json) → Option String → Except DecodeError String
  | _, [], some tag => .ok tag
  | _, [], none => .error (.missingField "op")
  | i, (k, v) :: rest, tag =>
    if k = "op" then
      match tag with
      | some _ => .error (.atKey i (.duplicateField "op"))
      | none =>
        match tagName v with
        | .ok t => decodeTag (i + 1) rest (some t)
        | .error e => .error (.inside i e)
    else
      match Json.outOfRange? v with
      | some e => .error (.inside i e)
      | none => decodeTag (i + 1) rest tag

/-- Reads the arguments of the operation with this name. -/
def decodeArguments (tag : String) (fs : Decode.Record) : Decoded Operation :=
  let sid := Decode.req fs 0 "schema_id" Id.decode
  let tid := Decode.req fs 1 "table_id" Id.decode
  let third (key : String) := Decode.req fs 2 key Id.decode
  let rid := Decode.req fs 1 "relationship_id" Id.decode
  match tag with
  | "createSchema" => Decoded.pure createSchema |>.ap (Decode.req fs 0 "schema" SchemaDraft.decode)
  | "deleteSchema" => Decoded.pure deleteSchema |>.ap sid
  | "changeSchemaName" =>
    Decoded.pure changeSchemaName |>.ap sid |>.ap (Decode.req fs 1 "name" Decode.string)
  | "createTable" =>
    Decoded.pure createTable |>.ap sid |>.ap (Decode.req fs 1 "table" TableDraft.decode)
  | "deleteTable" => Decoded.pure deleteTable |>.ap sid |>.ap tid
  | "changeTableName" =>
    Decoded.pure changeTableName |>.ap sid |>.ap tid |>.ap (Decode.req fs 2 "name" Decode.string)
  | "changeTableComment" =>
    Decoded.pure changeTableComment |>.ap sid |>.ap tid |>.ap (Decode.withDefault fs 2 "comment" (Decode.option Decode.string) none)
  | "createColumn" =>
    Decoded.pure createColumn |>.ap sid |>.ap tid
      |>.ap (Decode.req fs 2 "column" ColumnDraft.decode)
  | "deleteColumn" => Decoded.pure deleteColumn |>.ap sid |>.ap tid |>.ap (third "column_id")
  | "changeColumnName" =>
    Decoded.pure changeColumnName |>.ap sid |>.ap tid |>.ap (third "column_id")
      |>.ap (Decode.req fs 3 "name" Decode.string)
  | "changeColumnType" =>
    Decoded.pure changeColumnType |>.ap sid |>.ap tid |>.ap (third "column_id")
      |>.ap (Decode.withDefault fs 3 "data_type" (Decode.option Decode.string) none)
      |>.ap (Decode.withDefault fs 4 "length_scale" (Decode.option LengthScale.decode) none)
  | "changeColumnPosition" =>
    Decoded.pure changeColumnPosition |>.ap sid |>.ap tid |>.ap (third "column_id")
      |>.ap (Decode.req fs 3 "position" Decode.u32)
  | "changeColumnNullable" =>
    Decoded.pure changeColumnNullable |>.ap sid |>.ap tid |>.ap (third "column_id")
      |>.ap (Decode.req fs 3 "nullable" Decode.bool)
  | "changeColumnAutoIncrement" =>
    Decoded.pure changeColumnAutoIncrement |>.ap sid |>.ap tid |>.ap (third "column_id")
      |>.ap (Decode.req fs 3 "auto_increment" Decode.bool)
  | "createIndex" =>
    Decoded.pure createIndex |>.ap sid |>.ap tid |>.ap (Decode.req fs 2 "index" IndexDraft.decode)
  | "deleteIndex" => Decoded.pure deleteIndex |>.ap sid |>.ap tid |>.ap (third "index_id")
  | "changeIndexName" =>
    Decoded.pure changeIndexName |>.ap sid |>.ap tid |>.ap (third "index_id")
      |>.ap (Decode.req fs 3 "name" Decode.string)
  | "addColumnToIndex" =>
    Decoded.pure addColumnToIndex |>.ap sid |>.ap tid |>.ap (third "index_id")
      |>.ap (Decode.req fs 3 "column" IndexColumnDraft.decode)
  | "removeColumnFromIndex" =>
    Decoded.pure removeColumnFromIndex |>.ap sid |>.ap tid |>.ap (third "index_id")
      |>.ap (Decode.req fs 3 "index_column_id" Id.decode)
  | "changeIndexColumnSortDir" =>
    Decoded.pure changeIndexColumnSortDir |>.ap sid |>.ap tid |>.ap (third "index_id")
      |>.ap (Decode.req fs 3 "index_column_id" Id.decode)
      |>.ap (Decode.req fs 4 "sort_dir" SortDir.decode)
  | "createConstraint" =>
    Decoded.pure createConstraint |>.ap sid |>.ap tid
      |>.ap (Decode.req fs 2 "constraint" ConstraintDraft.decode)
  | "deleteConstraint" =>
    Decoded.pure deleteConstraint |>.ap sid |>.ap tid |>.ap (third "constraint_id")
  | "changeConstraintName" =>
    Decoded.pure changeConstraintName |>.ap sid |>.ap tid |>.ap (third "constraint_id")
      |>.ap (Decode.req fs 3 "name" Decode.string)
  | "addColumnToConstraint" =>
    Decoded.pure addColumnToConstraint |>.ap sid |>.ap tid |>.ap (third "constraint_id")
      |>.ap (Decode.req fs 3 "column" ConstraintColumnDraft.decode)
  | "removeColumnFromConstraint" =>
    Decoded.pure removeColumnFromConstraint |>.ap sid |>.ap tid |>.ap (third "constraint_id")
      |>.ap (Decode.req fs 3 "constraint_column_id" Id.decode)
  | "createRelationship" =>
    Decoded.pure createRelationship |>.ap sid
      |>.ap (Decode.req fs 1 "relationship" RelationshipDraft.decode)
  | "deleteRelationship" => Decoded.pure deleteRelationship |>.ap sid |>.ap rid
  | "changeRelationshipName" =>
    Decoded.pure changeRelationshipName |>.ap sid |>.ap rid
      |>.ap (Decode.req fs 2 "name" Decode.string)
  | "changeRelationshipCardinality" =>
    Decoded.pure changeRelationshipCardinality |>.ap sid |>.ap rid
      |>.ap (Decode.req fs 2 "cardinality" Cardinality.decode)
  | "changeRelationshipKind" =>
    Decoded.pure changeRelationshipKind |>.ap sid |>.ap rid
      |>.ap (Decode.req fs 2 "kind" RelationshipKind.decode)
  | "changeRelationshipActions" =>
    Decoded.pure changeRelationshipActions |>.ap sid |>.ap rid
      |>.ap (Decode.req fs 2 "on_delete" ReferentialAction.decode)
      |>.ap (Decode.req fs 3 "on_update" ReferentialAction.decode)
  | "addColumnToRelationship" =>
    Decoded.pure addColumnToRelationship |>.ap sid |>.ap rid
      |>.ap (Decode.req fs 2 "column" MappingDraft.decode)
  | "removeColumnFromRelationship" =>
    Decoded.pure removeColumnFromRelationship |>.ap sid |>.ap rid
      |>.ap (Decode.req fs 2 "relationship_column_id" Id.decode)
  | other => .error (0, .unknownVariant other tags)

/-- How many arguments the operation with this name takes. -/
def arity (tag : String) : Nat :=
  if ["createSchema", "deleteSchema"].contains tag then 1
  else if ["changeSchemaName", "createTable", "deleteTable", "createRelationship",
      "deleteRelationship"].contains tag then 2
  else if ["changeTableName", "changeTableComment", "createColumn", "deleteColumn", "createIndex",
      "deleteIndex", "createConstraint", "deleteConstraint", "changeRelationshipName",
      "changeRelationshipCardinality", "changeRelationshipKind", "addColumnToRelationship",
      "removeColumnFromRelationship"].contains tag then 3
  else if ["changeColumnType", "changeIndexColumnSortDir"].contains tag then 5
  else 4

/-- How messages name the operation with this name when its arguments are positional. -/
def variantName (tag : String) : String :=
  "struct variant Operation::" ++ String.ofList (match tag.toList with
    | c :: cs => c.toUpper :: cs
    | [] => [])

/-- Reads an operation: an object with its name under `op`, or an array of its name followed by
its arguments. The name is read first; the arguments are read ahead and kept, and read once the
name is known, so a refusal among them is reported as met in contents read ahead; only a number
too large to hold is refused while they are read ahead. -/
def decode : Decoder Operation
  | .obj fs => do
    let tag ← decodeTag 0 fs none
    (Decode.finish (.named []) (decodeArguments tag (.named (fs.filter (·.1 ≠ "op"))))).mapError
      .buffered
  | .arr [] => .error (.missingField "op")
  | .arr (j :: rest) => do
    let tag ← (tagName j).mapError (.inside 0)
    if let some e := Json.outOfRange? (.arr rest) then
      match e with
      | .inside i e => throw (.inside (i + 1) e)
      | e => throw e
    let r := Decode.Record.positional rest (variantName tag) (arity tag)
    (Decode.finish r (decodeArguments tag r)).mapError .buffered
  | j => .error (Decode.mismatch j "internally tagged enum Operation")

end Operation

end SchemaDesign
