/-!
# Kinds of things in a design

The closed choices a design is made of: the vendor a schema targets, the access method and sort
direction of an index, the kind of a constraint, the kind, cardinality and referential actions
of a relationship, and the length or precision of a column type.

Each choice has one spelling in snapshots (`code`, upper case with underscores) and is read back
only from that spelling (`ofCode?`). Constraint kinds and index types also have the word used in
messages (`word`).
-/

namespace SchemaDesign

/-- The database product a schema is designed for. -/
inductive Vendor where
  | mysql
  | mariadb
  | postgresql
  | mssql
  deriving DecidableEq, Repr, Inhabited

namespace Vendor

/-- Every vendor. -/
def all : List Vendor := [.mysql, .mariadb, .postgresql, .mssql]

/-- The spelling in snapshots and messages. -/
def code : Vendor → String
  | .mysql => "MYSQL"
  | .mariadb => "MARIADB"
  | .postgresql => "POSTGRESQL"
  | .mssql => "MSSQL"

/-- The vendor spelt `s`. -/
def ofCode? (s : String) : Option Vendor := all.find? (·.code = s)

end Vendor

/-- The access method of an index. -/
inductive IndexType where
  | btree
  | hash
  | fulltext
  | spatial
  deriving DecidableEq, Repr, Inhabited

namespace IndexType

/-- Every index type. -/
def all : List IndexType := [.btree, .hash, .fulltext, .spatial]

/-- The spelling in snapshots. -/
def code : IndexType → String
  | .btree => "BTREE"
  | .hash => "HASH"
  | .fulltext => "FULLTEXT"
  | .spatial => "SPATIAL"

/-- The word in messages. -/
def word : IndexType → String
  | .btree => "Btree"
  | .hash => "Hash"
  | .fulltext => "Fulltext"
  | .spatial => "Spatial"

/-- The index type spelt `s`. -/
def ofCode? (s : String) : Option IndexType := all.find? (·.code = s)

end IndexType

/-- The sort direction of an indexed column. -/
inductive SortDir where
  | asc
  | desc
  deriving DecidableEq, Repr, Inhabited

namespace SortDir

/-- The spelling in snapshots. -/
def code : SortDir → String
  | .asc => "ASC"
  | .desc => "DESC"

/-- The direction spelt `s`. -/
def ofCode? (s : String) : Option SortDir := [SortDir.asc, .desc].find? (·.code = s)

end SortDir

/-- What a constraint demands of its columns. -/
inductive ConstraintKind where
  | primaryKey
  | unique
  | check
  /-- A default value, given by an expression. -/
  | defaultValue
  | notNull
  deriving DecidableEq, Repr, Inhabited

namespace ConstraintKind

/-- Every constraint kind. -/
def all : List ConstraintKind := [.primaryKey, .unique, .check, .defaultValue, .notNull]

/-- The spelling in snapshots. -/
def code : ConstraintKind → String
  | .primaryKey => "PRIMARY_KEY"
  | .unique => "UNIQUE"
  | .check => "CHECK"
  | .defaultValue => "DEFAULT"
  | .notNull => "NOT_NULL"

/-- The word in messages. -/
def word : ConstraintKind → String
  | .primaryKey => "PrimaryKey"
  | .unique => "Unique"
  | .check => "Check"
  | .defaultValue => "Default"
  | .notNull => "NotNull"

/-- The kind spelt `s`. -/
def ofCode? (s : String) : Option ConstraintKind := all.find? (·.code = s)

/-- A check and a default need an expression. -/
def requiresExpression : ConstraintKind → Bool
  | .check | .defaultValue => true
  | _ => false

/-- A default and a not-null constraint hold exactly one column. -/
def isSingleColumn : ConstraintKind → Bool
  | .defaultValue | .notNull => true
  | _ => false

end ConstraintKind

/-- Whether the foreign key of a relationship takes part in the holder's primary key. -/
inductive RelationshipKind where
  | identifying
  | nonIdentifying
  deriving DecidableEq, Repr, Inhabited

namespace RelationshipKind

/-- The spelling in snapshots. -/
def code : RelationshipKind → String
  | .identifying => "IDENTIFYING"
  | .nonIdentifying => "NON_IDENTIFYING"

/-- The kind spelt `s`. -/
def ofCode? (s : String) : Option RelationshipKind :=
  [RelationshipKind.identifying, .nonIdentifying].find? (·.code = s)

end RelationshipKind

/-- The cardinality drawn on a relationship. -/
inductive Cardinality where
  | oneToOne
  | oneToZeroOrOne
  | oneToMany
  | oneToZeroOrMany
  deriving DecidableEq, Repr, Inhabited

namespace Cardinality

/-- The spelling in snapshots. -/
def code : Cardinality → String
  | .oneToOne => "ONE_TO_ONE"
  | .oneToZeroOrOne => "ONE_TO_ZERO_OR_ONE"
  | .oneToMany => "ONE_TO_MANY"
  | .oneToZeroOrMany => "ONE_TO_ZERO_OR_MANY"

/-- The cardinality spelt `s`. -/
def ofCode? (s : String) : Option Cardinality :=
  [Cardinality.oneToOne, .oneToZeroOrOne, .oneToMany, .oneToZeroOrMany].find? (·.code = s)

end Cardinality

/-- What happens to referencing rows on delete or update of the referenced row. -/
inductive ReferentialAction where
  | noAction
  | restrict
  | cascade
  | setNull
  | setDefault
  deriving DecidableEq, Repr, Inhabited

namespace ReferentialAction

/-- The spelling in snapshots. -/
def code : ReferentialAction → String
  | .noAction => "NO_ACTION"
  | .restrict => "RESTRICT"
  | .cascade => "CASCADE"
  | .setNull => "SET_NULL"
  | .setDefault => "SET_DEFAULT"

/-- The action spelt `s`. -/
def ofCode? (s : String) : Option ReferentialAction :=
  [ReferentialAction.noAction, .restrict, .cascade, .setNull, .setDefault].find? (·.code = s)

end ReferentialAction

/-- The length, or the precision and scale, of a column type. -/
inductive LengthScale where
  | length (n : Nat)
  | precisionScale (precision scale : Nat)
  deriving DecidableEq, Repr, Inhabited

namespace LengthScale

/-- The descriptor in messages: `n` or `p,s`. -/
def text : LengthScale → String
  | .length n => toString n
  | .precisionScale p s => toString p ++ "," ++ toString s

end LengthScale

end SchemaDesign
