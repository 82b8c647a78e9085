import SchemaDesign.Model.Basic
import SchemaDesign.Naming

/-!
# Why a design or an edit is refused

One constructor per cause, with the entities it concerns. Everything printed about a refusal is
derived here and nowhere else: its code (`code`), its family (`family`), its sentence
(`message`) and its fields (`details`, in the order the constructor lists them).
-/

namespace SchemaDesign

/-- The broad class of a refusal. -/
inductive ErrorFamily where
  | notFound
  | naming
  | structural
  | semantic
  | relationship
  | integrity
  deriving DecidableEq, Repr, Inhabited

namespace ErrorFamily

/-- The spelling in answers. -/
def code : ErrorFamily → String
  | .notFound => "not_found"
  | .naming => "naming"
  | .structural => "structural"
  | .semantic => "semantic"
  | .relationship => "relationship"
  | .integrity => "integrity"

end ErrorFamily

/-- Why a design or an edit is refused. -/
inductive DesignError where
  | schemaNotExist (schemaId : Id)
  | tableNotExist (tableId : Id)
  | columnNotExist (tableId columnId : Id)
  | indexNotExist (tableId indexId : Id)
  | indexColumnNotExist (indexId indexColumnId : Id)
  | constraintNotExist (tableId constraintId : Id)
  | constraintColumnNotExist (constraintId constraintColumnId : Id)
  | relationshipNotExist (relationshipId : Id)
  | relationshipColumnNotExist (relationshipId relationshipColumnId : Id)
  | relationshipTargetTableNotExist (tableId : Id)
  | schemaNameInvalid (name : String) (rule : NameRule)
  | schemaNameNotUnique (name : String)
  | tableNameInvalid (name : String) (rule : NameRule)
  | tableNameNotUnique (name : String)
  | columnNameInvalid (name : String) (rule : NameRule)
  | columnNameNotUnique (tableName name : String)
  | columnNameReservedKeyword (name : String)
  | indexNameInvalid (name : String) (rule : NameRule)
  | indexNameNotUnique (name : String)
  | constraintNameInvalid (name : String) (rule : NameRule)
  | constraintNameNotUnique (name : String)
  | relationshipNameInvalid (name : String) (rule : NameRule)
  | relationshipNameNotUnique (tableName name : String)
  | entityIdNotUnique (entity : String) (id : Id)
  | tableEmptyColumn (tableName : String)
  | columnPositionOutOfRange (tableName : String) (position max : Nat)
  | sequenceNotGapless (scope : String) (ownerId : Id)
  | indexColumnsEmpty (name : String)
  | indexColumnNotUnique (name : String) (columnId : Id)
  | indexDefinitionDuplicate (name existing : String)
  | constraintColumnsEmpty (name : String)
  | constraintColumnNotUnique (name : String) (columnId : Id)
  | duplicateKeyDefinition (name existing : String)
  | columnDataTypeInvalid (dataType : String) (vendor : Vendor)
  | columnLengthRequired (dataType : String)
  | columnPrecisionRequired (dataType : String)
  | columnLengthScaleInvalid (dataType : String) (lengthScale : LengthScale)
  | columnLengthScaleNotApplicable (dataType : String)
  | columnMultipleAutoIncrement (tableName : String)
  | columnAutoIncrementNotInteger (name : String)
  | columnNullableInPrimaryKey (name : String)
  | uniqueSameAsPrimaryKey (name : String)
  | constraintExpressionRequired (name : String) (kind : ConstraintKind)
  | constraintMultiplePrimaryKey (tableName : String)
  | constraintSingleColumnRequired (name : String) (kind : ConstraintKind)
  | indexTypeNotSupported (indexType : IndexType) (vendor : Vendor)
  | relationshipEmptyColumn (name : String)
  | relationshipCyclicReference (fkTable pkTable : String)
  | relationshipColumnNotUnique (name : String) (columnId : Id)
  | relationshipColumnMappingDuplicate (name : String) (columnId : Id)
  | relationshipColumnTypeIncompatible (fkColumn pkColumn : String)
  | relationshipSetNullRequiresNullable (name column : String)
  | schemaDeleteLast (schemaId : Id)
  | foreignKeyColumnRequired (column relationship : String)
  | referenceDangling (entity : String) (ownerId : Id) (target : String) (targetId : Id)
  | identifyingKeyNotPropagated (table parent column : String)
  deriving DecidableEq, Repr, Inhabited

/-- A field of a refusal's details. -/
inductive Detail where
  /-- A name or an id. -/
  | text (s : String)
  /-- A position or a bound. -/
  | num (n : Nat)
  /-- The naming rule broken. -/
  | rule (r : NameRule)
  /-- A length or precision. -/
  | lengthScale (ls : LengthScale)
  deriving DecidableEq, Repr, Inhabited

namespace DesignError

/-- The code of the refusal. -/
def code : DesignError → String
  | .schemaNotExist .. => "SCHEMA_NOT_EXIST"
  | .tableNotExist .. => "TABLE_NOT_EXIST"
  | .columnNotExist .. => "COLUMN_NOT_EXIST"
  | .indexNotExist .. => "INDEX_NOT_EXIST"
  | .indexColumnNotExist .. => "INDEX_COLUMN_NOT_EXIST"
  | .constraintNotExist .. => "CONSTRAINT_NOT_EXIST"
  | .constraintColumnNotExist .. => "CONSTRAINT_COLUMN_NOT_EXIST"
  | .relationshipNotExist .. => "RELATIONSHIP_NOT_EXIST"
  | .relationshipColumnNotExist .. => "RELATIONSHIP_COLUMN_NOT_EXIST"
  | .relationshipTargetTableNotExist .. => "RELATIONSHIP_TARGET_TABLE_NOT_EXIST"
  | .schemaNameInvalid .. => "SCHEMA_NAME_INVALID"
  | .schemaNameNotUnique .. => "SCHEMA_NAME_NOT_UNIQUE"
  | .tableNameInvalid .. => "TABLE_NAME_INVALID"
  | .tableNameNotUnique .. => "TABLE_NAME_NOT_UNIQUE"
  | .columnNameInvalid .. => "COLUMN_NAME_INVALID"
  | .columnNameNotUnique .. => "COLUMN_NAME_NOT_UNIQUE"
  | .columnNameReservedKeyword .. => "COLUMN_NAME_RESERVED_KEYWORD"
  | .indexNameInvalid .. => "INDEX_NAME_INVALID"
  | .indexNameNotUnique .. => "INDEX_NAME_NOT_UNIQUE"
  | .constraintNameInvalid .. => "CONSTRAINT_NAME_INVALID"
  | .constraintNameNotUnique .. => "CONSTRAINT_NAME_NOT_UNIQUE"
  | .relationshipNameInvalid .. => "RELATIONSHIP_NAME_INVALID"
  | .relationshipNameNotUnique .. => "RELATIONSHIP_NAME_NOT_UNIQUE"
  | .entityIdNotUnique .. => "ENTITY_ID_NOT_UNIQUE"
  | .tableEmptyColumn .. => "TABLE_EMPTY_COLUMN"
  | .columnPositionOutOfRange .. => "COLUMN_POSITION_OUT_OF_RANGE"
  | .sequenceNotGapless .. => "SEQUENCE_NOT_GAPLESS"
  | .indexColumnsEmpty .. => "INDEX_COLUMNS_EMPTY"
  | .indexColumnNotUnique .. => "INDEX_COLUMN_NOT_UNIQUE"
  | .indexDefinitionDuplicate .. => "INDEX_DEFINITION_DUPLICATE"
  | .constraintColumnsEmpty .. => "CONSTRAINT_COLUMNS_EMPTY"
  | .constraintColumnNotUnique .. => "CONSTRAINT_COLUMN_NOT_UNIQUE"
  | .duplicateKeyDefinition .. => "DUPLICATE_KEY_DEFINITION"
  | .columnDataTypeInvalid .. => "COLUMN_DATA_TYPE_INVALID"
  | .columnLengthRequired .. => "COLUMN_LENGTH_REQUIRED"
  | .columnPrecisionRequired .. => "COLUMN_PRECISION_REQUIRED"
  | .columnLengthScaleInvalid .. => "COLUMN_LENGTH_SCALE_INVALID"
  | .columnLengthScaleNotApplicable .. => "COLUMN_LENGTH_SCALE_NOT_APPLICABLE"
  | .columnMultipleAutoIncrement .. => "COLUMN_MULTIPLE_AUTO_INCREMENT"
  | .columnAutoIncrementNotInteger .. => "COLUMN_AUTO_INCREMENT_NOT_INTEGER"
  | .columnNullableInPrimaryKey .. => "COLUMN_NULLABLE_IN_PRIMARY_KEY"
  | .uniqueSameAsPrimaryKey .. => "UNIQUE_SAME_AS_PRIMARY_KEY"
  | .constraintExpressionRequired .. => "CONSTRAINT_EXPRESSION_REQUIRED"
  | .constraintMultiplePrimaryKey .. => "CONSTRAINT_MULTIPLE_PRIMARY_KEY"
  | .constraintSingleColumnRequired .. => "CONSTRAINT_SINGLE_COLUMN_REQUIRED"
  | .indexTypeNotSupported .. => "INDEX_TYPE_NOT_SUPPORTED"
  | .relationshipEmptyColumn .. => "RELATIONSHIP_EMPTY_COLUMN"
  | .relationshipCyclicReference .. => "RELATIONSHIP_CYCLIC_REFERENCE"
  | .relationshipColumnNotUnique .. => "RELATIONSHIP_COLUMN_NOT_UNIQUE"
  | .relationshipColumnMappingDuplicate .. => "RELATIONSHIP_COLUMN_MAPPING_DUPLICATE"
  | .relationshipColumnTypeIncompatible .. => "RELATIONSHIP_COLUMN_TYPE_INCOMPATIBLE"
  | .relationshipSetNullRequiresNullable .. => "RELATIONSHIP_SET_NULL_REQUIRES_NULLABLE"
  | .schemaDeleteLast .. => "SCHEMA_DELETE_LAST"
  | .foreignKeyColumnRequired .. => "FOREIGN_KEY_COLUMN_REQUIRED"
  | .referenceDangling .. => "REFERENCE_DANGLING"
  | .identifyingKeyNotPropagated .. => "IDENTIFYING_KEY_NOT_PROPAGATED"

/-- The family of the refusal. -/
def family : DesignError → ErrorFamily
  | .schemaNotExist .. | .tableNotExist .. | .columnNotExist .. | .indexNotExist ..
  | .indexColumnNotExist .. | .constraintNotExist .. | .constraintColumnNotExist ..
  | .relationshipNotExist .. | .relationshipColumnNotExist ..
  | .relationshipTargetTableNotExist .. => .notFound
  | .schemaNameInvalid .. | .schemaNameNotUnique .. | .tableNameInvalid ..
  | .tableNameNotUnique .. | .columnNameInvalid .. | .columnNameNotUnique ..
  | .columnNameReservedKeyword .. | .indexNameInvalid .. | .indexNameNotUnique ..
  | .constraintNameInvalid .. | .constraintNameNotUnique .. | .relationshipNameInvalid ..
  | .relationshipNameNotUnique .. => .naming
  | .entityIdNotUnique .. | .tableEmptyColumn .. | .columnPositionOutOfRange ..
  | .sequenceNotGapless .. | .indexColumnsEmpty .. | .indexColumnNotUnique ..
  | .indexDefinitionDuplicate .. | .constraintColumnsEmpty .. | .constraintColumnNotUnique ..
  | .duplicateKeyDefinition .. => .structural
  | .columnDataTypeInvalid .. | .columnLengthRequired .. | .columnPrecisionRequired ..
  | .columnLengthScaleInvalid .. | .columnLengthScaleNotApplicable ..
  | .columnMultipleAutoIncrement .. | .columnAutoIncrementNotInteger ..
  | .columnNullableInPrimaryKey .. | .uniqueSameAsPrimaryKey ..
  | .constraintExpressionRequired .. | .constraintMultiplePrimaryKey ..
  | .constraintSingleColumnRequired .. | .indexTypeNotSupported .. => .semantic
  | .relationshipEmptyColumn .. | .relationshipCyclicReference ..
  | .relationshipColumnNotUnique .. | .relationshipColumnMappingDuplicate ..
  | .relationshipColumnTypeIncompatible .. | .relationshipSetNullRequiresNullable .. =>
    .relationship
  | .schemaDeleteLast .. | .foreignKeyColumnRequired .. | .referenceDangling ..
  | .identifyingKeyNotPropagated .. => .integrity

/-- A name or id between single quotes. -/
def q (s : String) : String := "'" ++ s ++ "'"

/-- The sentence describing the refusal. -/
def message : DesignError → String
  | .schemaNotExist s => "schema " ++ q s.text ++ " does not exist"
  | .tableNotExist t => "table " ++ q t.text ++ " does not exist"
  | .columnNotExist t c => "column " ++ q c.text ++ " does not exist in table " ++ q t.text
  | .indexNotExist t i => "index " ++ q i.text ++ " does not exist in table " ++ q t.text
  | .indexColumnNotExist i c =>
    "index column " ++ q c.text ++ " does not exist in index " ++ q i.text
  | .constraintNotExist t k =>
    "constraint " ++ q k.text ++ " does not exist in table " ++ q t.text
  | .constraintColumnNotExist k c =>
    "constraint column " ++ q c.text ++ " does not exist in constraint " ++ q k.text
  | .relationshipNotExist r => "relationship " ++ q r.text ++ " does not exist"
  | .relationshipColumnNotExist r c =>
    "relationship column " ++ q c.text ++ " does not exist in relationship " ++ q r.text
  | .relationshipTargetTableNotExist t =>
    "relationship target table " ++ q t.text ++ " does not exist"
  | .schemaNameInvalid n r => "schema name " ++ q n ++ " is invalid: " ++ r.text
  | .schemaNameNotUnique n => "schema name " ++ q n ++ " is already used"
  | .tableNameInvalid n r => "table name " ++ q n ++ " is invalid: " ++ r.text
  | .tableNameNotUnique n => "table name " ++ q n ++ " is already used in this schema"
  | .columnNameInvalid n r => "column name " ++ q n ++ " is invalid: " ++ r.text
  | .columnNameNotUnique t n =>
    "column name " ++ q n ++ " is already used in table " ++ q t
  | .columnNameReservedKeyword n => "column name " ++ q n ++ " is a reserved keyword"
  | .indexNameInvalid n r => "index name " ++ q n ++ " is invalid: " ++ r.text
  | .indexNameNotUnique n => "index name " ++ q n ++ " is already used in this schema"
  | .constraintNameInvalid n r => "constraint name " ++ q n ++ " is invalid: " ++ r.text
  | .constraintNameNotUnique n =>
    "constraint name " ++ q n ++ " is already used in this schema"
  | .relationshipNameInvalid n r => "relationship name " ++ q n ++ " is invalid: " ++ r.text
  | .relationshipNameNotUnique t n =>
    "relationship name " ++ q n ++ " is already used in table " ++ q t
  | .entityIdNotUnique e i => "id " ++ q i.text ++ " is already used by another " ++ e
  | .tableEmptyColumn t => "table " ++ q t ++ " must keep at least one column"
  | .columnPositionOutOfRange t p m =>
    "position " ++ toString p ++ " is out of range 1..=" ++ toString m ++ " in table " ++ q t
  | .sequenceNotGapless s o => s ++ " sequence of " ++ q o.text ++ " is not gapless from 1"
  | .indexColumnsEmpty n => "index " ++ q n ++ " must have at least one column"
  | .indexColumnNotUnique n c =>
    "column " ++ q c.text ++ " appears more than once in index " ++ q n
  | .indexDefinitionDuplicate n e =>
    "index " ++ q n ++ " duplicates the definition of index " ++ q e
  | .constraintColumnsEmpty n => "constraint " ++ q n ++ " must have at least one column"
  | .constraintColumnNotUnique n c =>
    "column " ++ q c.text ++ " appears more than once in constraint " ++ q n
  | .duplicateKeyDefinition n e =>
    "constraint " ++ q n ++ " duplicates the definition of constraint " ++ q e
  | .columnDataTypeInvalid d v => "data type " ++ q d ++ " is not supported by " ++ v.code
  | .columnLengthRequired d => "data type " ++ q d ++ " requires a length"
  | .columnPrecisionRequired d => "data type " ++ q d ++ " requires precision and scale"
  | .columnLengthScaleInvalid d ls =>
    "length/scale " ++ q ls.text ++ " is invalid for data type " ++ q d
  | .columnLengthScaleNotApplicable d =>
    "data type " ++ q d ++ " does not take a length or precision"
  | .columnMultipleAutoIncrement t => "table " ++ q t ++ " already has an auto-increment column"
  | .columnAutoIncrementNotInteger n =>
    "auto-increment column " ++ q n ++ " must have an integer data type"
  | .columnNullableInPrimaryKey n =>
    "column " ++ q n ++ " belongs to the primary key and cannot be nullable"
  | .uniqueSameAsPrimaryKey n =>
    "unique constraint " ++ q n ++ " has the same columns as the primary key"
  | .constraintExpressionRequired n k =>
    k.word ++ " constraint " ++ q n ++ " requires an expression"
  | .constraintMultiplePrimaryKey t => "table " ++ q t ++ " already has a primary key"
  | .constraintSingleColumnRequired n k =>
    k.word ++ " constraint " ++ q n ++ " must have exactly one column"
  | .indexTypeNotSupported i v => "index type " ++ i.word ++ " is not supported by " ++ v.code
  | .relationshipEmptyColumn n => "relationship " ++ q n ++ " must map at least one column"
  | .relationshipCyclicReference f p =>
    "identifying relationship from " ++ q f ++ " to " ++ q p ++ " would create a cycle"
  | .relationshipColumnNotUnique n c =>
    "foreign-key column " ++ q c.text ++ " is mapped more than once in relationship " ++ q n
  | .relationshipColumnMappingDuplicate n c =>
    "referenced column " ++ q c.text ++ " is mapped more than once in relationship " ++ q n
  | .relationshipColumnTypeIncompatible f p =>
    "column " ++ q f ++ " is not type-compatible with referenced column " ++ q p
  | .relationshipSetNullRequiresNullable n c =>
    "relationship " ++ q n ++ " uses SET NULL but column " ++ q c ++ " is not nullable"
  | .schemaDeleteLast _ => "the last remaining schema cannot be deleted"
  | .foreignKeyColumnRequired c r =>
    "column " ++ q c ++ " is required by identifying relationship " ++ q r
  | .referenceDangling e o t i =>
    e ++ " " ++ q o.text ++ " references missing " ++ t ++ " " ++ q i.text
  | .identifyingKeyNotPropagated t p c =>
    "table " ++ q t ++ " does not carry key column " ++ q c ++ " of identifying parent " ++ q p

/-- An id as a detail. -/
def idd (i : Id) : Detail := .text i.text

/-- The fields of the refusal, named as in answers, in the constructor's order. -/
def details : DesignError → List (String × Detail)
  | .schemaNotExist s => [("schema_id", idd s)]
  | .tableNotExist t => [("table_id", idd t)]
  | .columnNotExist t c => [("table_id", idd t), ("column_id", idd c)]
  | .indexNotExist t i => [("table_id", idd t), ("index_id", idd i)]
  | .indexColumnNotExist i c => [("index_id", idd i), ("index_column_id", idd c)]
  | .constraintNotExist t k => [("table_id", idd t), ("constraint_id", idd k)]
  | .constraintColumnNotExist k c =>
    [("constraint_id", idd k), ("constraint_column_id", idd c)]
  | .relationshipNotExist r => [("relationship_id", idd r)]
  | .relationshipColumnNotExist r c =>
    [("relationship_id", idd r), ("relationship_column_id", idd c)]
  | .relationshipTargetTableNotExist t => [("table_id", idd t)]
  | .schemaNameInvalid n r | .tableNameInvalid n r | .columnNameInvalid n r
  | .indexNameInvalid n r | .constraintNameInvalid n r | .relationshipNameInvalid n r =>
    [("name", .text n), ("rule", .rule r)]
  | .schemaNameNotUnique n | .tableNameNotUnique n | .columnNameReservedKeyword n
  | .indexNameNotUnique n | .constraintNameNotUnique n | .indexColumnsEmpty n
  | .constraintColumnsEmpty n | .columnAutoIncrementNotInteger n
  | .columnNullableInPrimaryKey n | .uniqueSameAsPrimaryKey n
  | .relationshipEmptyColumn n => [("name", .text n)]
  | .columnNameNotUnique t n | .relationshipNameNotUnique t n =>
    [("table_name", .text t), ("name", .text n)]
  | .entityIdNotUnique e i => [("entity", .text e), ("id", idd i)]
  | .tableEmptyColumn t | .columnMultipleAutoIncrement t | .constraintMultiplePrimaryKey t =>
    [("table_name", .text t)]
  | .columnPositionOutOfRange t p m =>
    [("table_name", .text t), ("position", .num p), ("max", .num m)]
  | .sequenceNotGapless s o => [("scope", .text s), ("owner_id", idd o)]
  | .indexColumnNotUnique n c | .constraintColumnNotUnique n c
  | .relationshipColumnNotUnique n c | .relationshipColumnMappingDuplicate n c =>
    [("name", .text n), ("column_id", idd c)]
  | .indexDefinitionDuplicate n e | .duplicateKeyDefinition n e =>
    [("name", .text n), ("existing", .text e)]
  | .columnDataTypeInvalid d v => [("data_type", .text d), ("vendor", .text v.code)]
  | .columnLengthRequired d | .columnPrecisionRequired d
  | .columnLengthScaleNotApplicable d => [("data_type", .text d)]
  | .columnLengthScaleInvalid d ls => [("data_type", .text d), ("length_scale", .lengthScale ls)]
  | .constraintExpressionRequired n k | .constraintSingleColumnRequired n k =>
    [("name", .text n), ("kind", .text k.code)]
  | .indexTypeNotSupported i v => [("index_type", .text i.code), ("vendor", .text v.code)]
  | .relationshipCyclicReference f p => [("fk_table", .text f), ("pk_table", .text p)]
  | .relationshipColumnTypeIncompatible f p => [("fk_column", .text f), ("pk_column", .text p)]
  | .relationshipSetNullRequiresNullable n c => [("name", .text n), ("column", .text c)]
  | .schemaDeleteLast s => [("schema_id", idd s)]
  | .foreignKeyColumnRequired c r => [("column", .text c), ("relationship", .text r)]
  | .referenceDangling e o t i =>
    [("entity", .text e), ("owner_id", idd o), ("target", .text t), ("target_id", idd i)]
  | .identifyingKeyNotPropagated t p c =>
    [("table", .text t), ("parent", .text p), ("column", .text c)]

end DesignError

end SchemaDesign
