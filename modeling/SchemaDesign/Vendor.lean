import SchemaDesign.Model.Kinds
import SchemaDesign.Naming
import SchemaDesign.Text.Blank

/-!
# What each vendor supports

The data types a vendor accepts, which of them are integers (and so may auto-increment), which
index types it offers, and what descriptor a type takes. A data type is looked up after its
blanks are trimmed and its ASCII letters upper-cased, so `" varchar "` names `VARCHAR`.
MariaDB accepts exactly what MySQL accepts.
-/

namespace SchemaDesign

/-- A data type name as it is looked up: trimmed, ASCII letters upper-cased. -/
def normalizeType (dataType : String) : String := upperAscii (trimBlanks dataType)

namespace Vendor

/-- The data types of the vendor, upper case. -/
def dataTypes : Vendor → List String
  | .mysql | .mariadb =>
    ["TINYINT", "SMALLINT", "MEDIUMINT", "INT", "INTEGER", "BIGINT", "DECIMAL", "NUMERIC",
     "FLOAT", "DOUBLE", "BIT", "BOOLEAN", "DATE", "DATETIME", "TIMESTAMP", "TIME", "YEAR",
     "CHAR", "VARCHAR", "BINARY", "VARBINARY", "TINYTEXT", "TEXT", "MEDIUMTEXT", "LONGTEXT",
     "TINYBLOB", "BLOB", "MEDIUMBLOB", "LONGBLOB", "ENUM", "SET", "JSON"]
  | .postgresql =>
    ["SMALLINT", "INTEGER", "INT", "BIGINT", "SMALLSERIAL", "SERIAL", "BIGSERIAL", "DECIMAL",
     "NUMERIC", "REAL", "DOUBLE PRECISION", "MONEY", "BOOLEAN", "DATE", "TIME", "TIMETZ",
     "TIMESTAMP", "TIMESTAMPTZ", "INTERVAL", "CHAR", "VARCHAR", "TEXT", "BYTEA", "UUID", "JSON",
     "JSONB", "INET", "CIDR", "XML"]
  | .mssql =>
    ["TINYINT", "SMALLINT", "INT", "BIGINT", "DECIMAL", "NUMERIC", "MONEY", "SMALLMONEY",
     "FLOAT", "REAL", "BIT", "DATE", "TIME", "DATETIME", "DATETIME2", "DATETIMEOFFSET",
     "SMALLDATETIME", "CHAR", "VARCHAR", "NCHAR", "NVARCHAR", "TEXT", "NTEXT", "BINARY",
     "VARBINARY", "IMAGE", "UNIQUEIDENTIFIER", "XML"]

/-- The integer data types of the vendor, upper case. -/
def integerTypes : Vendor → List String
  | .mysql | .mariadb => ["TINYINT", "SMALLINT", "MEDIUMINT", "INT", "INTEGER", "BIGINT"]
  | .postgresql => ["SMALLINT", "INTEGER", "INT", "BIGINT", "SMALLSERIAL", "SERIAL", "BIGSERIAL"]
  | .mssql => ["TINYINT", "SMALLINT", "INT", "BIGINT"]

/-- Whether the vendor accepts a data type. -/
def supportsDataType (v : Vendor) (dataType : String) : Bool :=
  v.dataTypes.contains (normalizeType dataType)

/-- Whether a data type is one of the vendor's integers. -/
def isIntegerType (v : Vendor) (dataType : String) : Bool :=
  v.integerTypes.contains (normalizeType dataType)

/-- Whether the vendor offers an index type. -/
def supportsIndexType : Vendor → IndexType → Bool
  | .mysql, _ | .mariadb, _ => true
  | .postgresql, t => t = .btree || t = .hash
  | .mssql, t => t = .btree || t = .spatial

end Vendor

/-- The descriptor a data type takes. -/
inductive TypeParams where
  /-- A length is required. -/
  | length
  /-- Precision and scale are required. -/
  | precisionScale
  /-- A length may be given. -/
  | optionalLength
  /-- No descriptor. -/
  | none
  deriving DecidableEq, Repr, Inhabited

namespace TypeParams

/-- The descriptor a data type takes, by its name alone. -/
def ofType (dataType : String) : TypeParams :=
  let t := normalizeType dataType
  if t = "VARCHAR" ∨ t = "CHAR" then .length
  else if t = "DECIMAL" ∨ t = "NUMERIC" then .precisionScale
  else if ["NCHAR", "NVARCHAR", "BINARY", "VARBINARY", "BIT", "FLOAT", "DATETIME2", "TIME",
      "TIMESTAMP"].contains t then .optionalLength
  else .none

/-- The spelling in answers. -/
def code : TypeParams → String
  | .length => "LENGTH"
  | .precisionScale => "PRECISION_SCALE"
  | .optionalLength => "OPTIONAL_LENGTH"
  | .none => "NONE"

end TypeParams

end SchemaDesign
