import SchemaDesign.Edit.Schemas
import SchemaDesign.Edit.Tables
import SchemaDesign.Edit.Indexes
import SchemaDesign.Edit.Constraints

/-!
# Operations

Every change to a design is one of these operations. `Operation.run` carries it out on an edit
session, and `Operation.name` is how events name it.
-/

namespace SchemaDesign

/-- One design operation. -/
inductive Operation where
  | createSchema (schema : SchemaDraft)
  | deleteSchema (schemaId : Id)
  | changeSchemaName (schemaId : Id) (name : String)
  | createTable (schemaId : Id) (table : TableDraft)
  | deleteTable (schemaId tableId : Id)
  | changeTableName (schemaId tableId : Id) (name : String)
  | changeTableComment (schemaId tableId : Id) (comment : Option String)
  | createColumn (schemaId tableId : Id) (column : ColumnDraft)
  | deleteColumn (schemaId tableId columnId : Id)
  | changeColumnName (schemaId tableId columnId : Id) (name : String)
  | changeColumnType (schemaId tableId columnId : Id) (dataType : Option String)
      (lengthScale : Option LengthScale)
  | changeColumnPosition (schemaId tableId columnId : Id) (position : Nat)
  | changeColumnNullable (schemaId tableId columnId : Id) (nullable : Bool)
  | changeColumnAutoIncrement (schemaId tableId columnId : Id) (autoIncrement : Bool)
  | createIndex (schemaId tableId : Id) (index : IndexDraft)
  | deleteIndex (schemaId tableId indexId : Id)
  | changeIndexName (schemaId tableId indexId : Id) (name : String)
  | addColumnToIndex (schemaId tableId indexId : Id) (column : IndexColumnDraft)
  | removeColumnFromIndex (schemaId tableId indexId entryId : Id)
  | changeIndexColumnSortDir (schemaId tableId indexId entryId : Id) (sortDir : SortDir)
  | createConstraint (schemaId tableId : Id) (constraint : ConstraintDraft)
  | deleteConstraint (schemaId tableId constraintId : Id)
  | changeConstraintName (schemaId tableId constraintId : Id) (name : String)
  | addColumnToConstraint (schemaId tableId constraintId : Id) (column : ConstraintColumnDraft)
  | removeColumnFromConstraint (schemaId tableId constraintId entryId : Id)
  | createRelationship (schemaId : Id) (relationship : RelationshipDraft)
  | deleteRelationship (schemaId relationshipId : Id)
  | changeRelationshipName (schemaId relationshipId : Id) (name : String)
  | changeRelationshipCardinality (schemaId relationshipId : Id) (cardinality : Cardinality)
  | changeRelationshipKind (schemaId relationshipId : Id) (kind : RelationshipKind)
  | changeRelationshipActions (schemaId relationshipId : Id) (onDelete onUpdate : ReferentialAction)
  | addColumnToRelationship (schemaId relationshipId : Id) (column : MappingDraft)
  | removeColumnFromRelationship (schemaId relationshipId mappingId : Id)
  deriving DecidableEq, Repr, Inhabited

namespace Operation

/-- The name events give the operation. -/
def name : Operation → String
  | .createSchema .. => "create_schema"
  | .deleteSchema .. => "delete_schema"
  | .changeSchemaName .. => "change_schema_name"
  | .createTable .. => "create_table"
  | .deleteTable .. => "delete_table"
  | .changeTableName .. => "change_table_name"
  | .changeTableComment .. => "change_table_comment"
  | .createColumn .. => "create_column"
  | .deleteColumn .. => "delete_column"
  | .changeColumnName .. => "change_column_name"
  | .changeColumnType .. => "change_column_type"
  | .changeColumnPosition .. => "change_column_position"
  | .changeColumnNullable .. => "change_column_nullable"
  | .changeColumnAutoIncrement .. => "change_column_auto_increment"
  | .createIndex .. => "create_index"
  | .deleteIndex .. => "delete_index"
  | .changeIndexName .. => "change_index_name"
  | .addColumnToIndex .. => "add_column_to_index"
  | .removeColumnFromIndex .. => "remove_column_from_index"
  | .changeIndexColumnSortDir .. => "change_index_column_sort_dir"
  | .createConstraint .. => "create_constraint"
  | .deleteConstraint .. => "delete_constraint"
  | .changeConstraintName .. => "change_constraint_name"
  | .addColumnToConstraint .. => "add_column_to_constraint"
  | .removeColumnFromConstraint .. => "remove_column_from_constraint"
  | .createRelationship .. => "create_relationship"
  | .deleteRelationship .. => "delete_relationship"
  | .changeRelationshipName .. => "change_relationship_name"
  | .changeRelationshipCardinality .. => "change_relationship_cardinality"
  | .changeRelationshipKind .. => "change_relationship_kind"
  | .changeRelationshipActions .. => "change_relationship_actions"
  | .addColumnToRelationship .. => "add_column_to_relationship"
  | .removeColumnFromRelationship .. => "remove_column_from_relationship"

/-- Carries the operation out on an edit session. -/
def run : Operation → EditM Unit
  | .createSchema d => EditM.createSchema d
  | .deleteSchema s => EditM.deleteSchema s
  | .changeSchemaName s n => EditM.changeSchemaName s n
  | .createTable s d => EditM.createTable s d
  | .deleteTable s t => EditM.deleteTable s t
  | .changeTableName s t n => EditM.changeTableName s t n
  | .changeTableComment s t c => EditM.changeTableComment s t c
  | .createColumn s t d => EditM.createColumn s t d
  | .deleteColumn s t c => EditM.deleteColumn s t c
  | .changeColumnName s t c n => EditM.changeColumnName s t c n
  | .changeColumnType s t c dt ls => EditM.changeColumnType s t c dt ls
  | .changeColumnPosition s t c p => EditM.changeColumnPosition s t c p
  | .changeColumnNullable s t c b => EditM.changeColumnNullable s t c b
  | .changeColumnAutoIncrement s t c b => EditM.changeColumnAutoIncrement s t c b
  | .createIndex s t d => EditM.createIndex s t d
  | .deleteIndex s t i => EditM.deleteIndex s t i
  | .changeIndexName s t i n => EditM.changeIndexName s t i n
  | .addColumnToIndex s t i d => EditM.addColumnToIndex s t i d
  | .removeColumnFromIndex s t i e => EditM.removeColumnFromIndex s t i e
  | .changeIndexColumnSortDir s t i e d => EditM.changeIndexColumnSortDir s t i e d
  | .createConstraint s t d => EditM.createConstraint s t d
  | .deleteConstraint s t k => EditM.deleteConstraint s t k
  | .changeConstraintName s t k n => EditM.changeConstraintName s t k n
  | .addColumnToConstraint s t k d => EditM.addColumnToConstraint s t k d
  | .removeColumnFromConstraint s t k e => EditM.removeColumnFromConstraint s t k e
  | .createRelationship s d => EditM.createRelationship s d
  | .deleteRelationship s r => EditM.deleteRelationship s r
  | .changeRelationshipName s r n => EditM.changeRelationshipName s r n
  | .changeRelationshipCardinality s r c => EditM.changeRelationshipCardinality s r c
  | .changeRelationshipKind s r k => EditM.changeRelationshipKind s r k
  | .changeRelationshipActions s r d u => EditM.changeRelationshipActions s r d u
  | .addColumnToRelationship s r d => EditM.addColumnToRelationship s r d
  | .removeColumnFromRelationship s r m => EditM.removeColumnFromRelationship s r m

end Operation

end SchemaDesign
