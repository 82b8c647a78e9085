/-!
# Names

The rules every name of a design follows, and how fresh names are chosen.

- A name's length, counted in Unicode scalar values, lies within inclusive bounds.
- An identifier is, in addition, a letter or underscore followed by letters, digits and
  underscores, all ASCII.
- A reserved word (compared with ASCII letters upper-cased) cannot name a column.
- `uniqueName` chooses the first free name among the base cut to the bound and then the base
  cut shorter with `_2`, `_3`, … appended. These candidates are pairwise distinct, so among the
  first `taken.length + 1` of them one is free.
- `sanitize` turns any text into an identifier-shaped one, for names derived from other names.
-/

namespace SchemaDesign

/-- Inclusive bounds on the length of a name. -/
structure LengthBounds where
  min : Nat
  max : Nat
  deriving DecidableEq, Repr, Inhabited

namespace LengthBounds

/-- Whether a length lies within the bounds. -/
def contains (b : LengthBounds) (n : Nat) : Bool := b.min ≤ n && n ≤ b.max

end LengthBounds

/-- The rule a refused name breaks. -/
inductive NameRule where
  /-- Its length is outside the bounds. -/
  | length (min max : Nat)
  /-- It is not a letter or underscore followed by letters, digits and underscores. -/
  | format
  deriving DecidableEq, Repr, Inhabited

namespace NameRule

/-- The rule in words, as it follows "is invalid: ". -/
def text : NameRule → String
  | .length min max => "must be between " ++ toString min ++ " and " ++ toString max ++ " characters"
  | .format => "must contain only letters, digits and underscores and must not start with a digit"

end NameRule

/-- An ASCII letter. -/
def isAsciiLetter (c : Char) : Bool := ('a' ≤ c && c ≤ 'z') || ('A' ≤ c && c ≤ 'Z')

/-- An ASCII digit. -/
def isAsciiDigit (c : Char) : Bool := '0' ≤ c && c ≤ '9'

/-- A character allowed after the first one of an identifier. -/
def isWordChar (c : Char) : Bool := isAsciiLetter c || isAsciiDigit c || c == '_'

/-- Whether a text has the shape of an identifier: `[A-Za-z_][A-Za-z0-9_]*`. -/
def isIdentifierShaped (s : String) : Bool :=
  match s.toList with
  | [] => false
  | c :: cs => (isAsciiLetter c || c == '_') && cs.all isWordChar

/-- Refuses a name whose length is outside the bounds. -/
def checkLength (name : String) (b : LengthBounds) : Except NameRule Unit :=
  if b.contains name.length then .ok () else .error (.length b.min b.max)

/-- Refuses a name outside the bounds, then one that is not identifier-shaped. -/
def checkIdentifier (name : String) (b : LengthBounds) : Except NameRule Unit := do
  checkLength name b
  unless isIdentifierShaped name do throw .format

/-- The first `n` characters of a text. -/
def truncate (s : String) (n : Nat) : String := String.ofList (s.toList.take n)

/-- The `k`-th candidate name for `base` under the length bound `max`, for `k ≥ 2`. -/
def suffixed (base : String) (max k : Nat) : String :=
  let suffix := "_" ++ toString k
  truncate base (max - suffix.length) ++ suffix

/-- The base cut to `max` if free, else the first free `suffixed` candidate. -/
def uniqueName (base : String) (max : Nat) (taken : List String) : String :=
  let first := truncate base max
  if first ∉ taken then first
  else
    let candidates := (List.range (taken.length + 1)).map fun i => suffixed base max (i + 2)
    (candidates.find? (· ∉ taken)).getD (suffixed base max (taken.length + 2))

/-- Replaces every character that may not stand in an identifier by `_`, and puts `_` in front
of a result that is empty or starts with a digit. -/
def sanitize (name : String) : String :=
  let cs := name.toList.map fun c => if isWordChar c then c else '_'
  match cs with
  | [] => "_"
  | c :: _ => if isAsciiDigit c then String.ofList ('_' :: cs) else String.ofList cs

/-- Words that no column may be named, in upper case. -/
def reservedWords : List String :=
  ["ADD", "ALL", "ALTER", "AND", "ANY", "AS", "ASC", "BETWEEN", "BY", "CASE", "CHECK",
   "COLUMN", "CONSTRAINT", "CREATE", "CROSS", "DATABASE", "DEFAULT", "DELETE", "DESC",
   "DISTINCT", "DROP", "ELSE", "END", "EXISTS", "FOREIGN", "FROM", "FULL", "GRANT", "GROUP",
   "HAVING", "IN", "INDEX", "INNER", "INSERT", "INTO", "IS", "JOIN", "KEY", "LEFT", "LIKE",
   "LIMIT", "NOT", "NULL", "ON", "OR", "ORDER", "OUTER", "PRIMARY", "REFERENCES", "REVOKE",
   "RIGHT", "SCHEMA", "SELECT", "SET", "TABLE", "THEN", "TO", "UNION", "UNIQUE", "UPDATE",
   "USING", "VALUES", "VIEW", "WHEN", "WHERE", "WITH"]

/-- Upper-cases ASCII letters only. -/
def upperAscii (s : String) : String :=
  String.ofList (s.toList.map fun c => if 'a' ≤ c && c ≤ 'z' then Char.ofNat (c.toNat - 32) else c)

/-- Whether a name is a reserved word, ignoring the case of ASCII letters. -/
def isReserved (name : String) : Bool := reservedWords.contains (upperAscii name)

end SchemaDesign
