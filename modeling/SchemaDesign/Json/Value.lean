/-!
# JSON values

The data format of snapshots, operation scripts and answers. A value is a tree whose objects keep
their members in the order written; a key written twice is looked up by its last binding, as a
map built member by member would hold it.

Numbers come in two kinds, because a field of unsigned integer type accepts only the first:
integral literals (`int`) and literals with a fraction or an exponent, or the negative zero
(`float`, kept as written).

Two printers: `compact` (no blanks) and `pretty` (two-space indentation, `"key": value`, empty
containers as `[]` and `{}`). Both escape a quote, a backslash and the control characters and
write every other character as it is.
-/

namespace SchemaDesign

/-- A JSON value. -/
inductive Json where
  /-- `null` -/
  | null
  /-- `true` or `false` -/
  | bool (b : Bool)
  /-- An integral number literal. -/
  | int (i : Int)
  /-- A number literal with a fraction or an exponent, kept as written. -/
  | float (text : String)
  /-- A string. -/
  | str (s : String)
  /-- An array. -/
  | arr (items : List Json)
  /-- An object, members in the order written. -/
  | obj (fields : List (String × Json))
  deriving Inhabited, Repr

namespace Json

/-- A natural number as a JSON number. -/
def nat (n : Nat) : Json := .int n

/-- An optional string, `null` when absent. -/
def optStr : Option String → Json
  | some s => .str s
  | none => .null

/-- An optional value, `null` when absent. -/
def opt : Option Json → Json
  | some j => j
  | none => .null

/-- The last binding of `key` among the members. -/
def lookup (key : String) (fields : List (String × Json)) : Option Json :=
  fields.foldl (fun acc kv => if kv.1 = key then some kv.2 else acc) none

/-- The member `key` of an object; `none` for a missing key or a value that is no object. -/
def get? (j : Json) (key : String) : Option Json :=
  match j with
  | .obj fields => lookup key fields
  | _ => none

/-- The member `key`, with `null` standing for a missing member. -/
def getD (j : Json) (key : String) : Json :=
  (j.get? key).getD .null

/-- The text of a string value. -/
def asStr? : Json → Option String
  | .str s => some s
  | _ => none

/-- The items of an array value. -/
def asArr? : Json → Option (List Json)
  | .arr xs => some xs
  | _ => none

/-- The members of an object value. -/
def asObj? : Json → Option (List (String × Json))
  | .obj fs => some fs
  | _ => none

/-- The truth value of a boolean value. -/
def asBool? : Json → Option Bool
  | .bool b => some b
  | _ => none

/-- A non-negative integral number. -/
def asNat? : Json → Option Nat
  | .int i => if 0 ≤ i then some i.toNat else none
  | _ => none

/-- Whether the value is `null`. -/
def isNull : Json → Bool
  | .null => true
  | _ => false

/-- The four hexadecimal digits of a code unit below 0x10000, lower case. -/
def hex4 (n : Nat) : String :=
  let digit (d : Nat) : Char := if d < 10 then Char.ofNat (48 + d) else Char.ofNat (87 + d)
  String.ofList [digit (n / 4096 % 16), digit (n / 256 % 16), digit (n / 16 % 16), digit (n % 16)]

/-- A character as it stands inside a written string. -/
def escapeChar (c : Char) : String :=
  if c = '"' then "\\\""
  else if c = '\\' then "\\\\"
  else if c = '\n' then "\\n"
  else if c = '\r' then "\\r"
  else if c = '\t' then "\\t"
  else if c = '\x08' then "\\b"
  else if c = '\x0c' then "\\f"
  else if c.toNat < 0x20 then "\\u" ++ hex4 c.toNat
  else c.toString

/-- A string written with its quotes. -/
def quote (s : String) : String :=
  "\"" ++ String.join (s.toList.map escapeChar) ++ "\""

/-- The text of a number. -/
def intText (i : Int) : String :=
  if 0 ≤ i then toString i.toNat else "-" ++ toString (-i).toNat

mutual
/-- The value with no blanks. -/
def compact : Json → String
  | .null => "null"
  | .bool b => if b then "true" else "false"
  | .int i => intText i
  | .float t => t
  | .str s => quote s
  | .arr xs => "[" ++ compactItems xs ++ "]"
  | .obj fs => "\x7b" ++ compactFields fs ++ "\x7d"

/-- Items separated by commas. -/
def compactItems : List Json → String
  | [] => ""
  | [x] => compact x
  | x :: xs => compact x ++ "," ++ compactItems xs

/-- Members separated by commas. -/
def compactFields : List (String × Json) → String
  | [] => ""
  | [(k, v)] => quote k ++ ":" ++ compact v
  | (k, v) :: fs => quote k ++ ":" ++ compact v ++ "," ++ compactFields fs
end

/-- Two blanks per level. -/
def indent (level : Nat) : String :=
  String.ofList (List.replicate (2 * level) ' ')

mutual
/-- The value indented for reading, starting at `level`. -/
def prettyAt (level : Nat) : Json → String
  | .arr [] => "[]"
  | .obj [] => "\x7b\x7d"
  | .arr xs => "[\n" ++ prettyItems (level + 1) xs ++ "\n" ++ indent level ++ "]"
  | .obj fs => "\x7b\n" ++ prettyFields (level + 1) fs ++ "\n" ++ indent level ++ "\x7d"
  | j => compact j

/-- Items, one per line. -/
def prettyItems (level : Nat) : List Json → String
  | [] => ""
  | [x] => indent level ++ prettyAt level x
  | x :: xs => indent level ++ prettyAt level x ++ ",\n" ++ prettyItems level xs

/-- Members, one per line. -/
def prettyFields (level : Nat) : List (String × Json) → String
  | [] => ""
  | [(k, v)] => indent level ++ quote k ++ ": " ++ prettyAt level v
  | (k, v) :: fs => indent level ++ quote k ++ ": " ++ prettyAt level v ++ ",\n" ++ prettyFields level fs
end

/-- The value indented for reading. -/
def pretty (j : Json) : String := prettyAt 0 j

/-- Inserts a member into members sorted by key, after those with a key not above it. -/
def insertSorted (kv : String × Json) : List (String × Json) → List (String × Json)
  | [] => [kv]
  | m :: ms => if kv.1 < m.1 then kv :: m :: ms else m :: insertSorted kv ms

mutual
/-- The value with the members of every object sorted by key; of equal keys the last stays. -/
def sortKeys : Json → Json
  | .arr xs => .arr (sortItems xs)
  | .obj fs => .obj (sortFields fs [])
  | j => j

/-- `sortKeys` on each item. -/
def sortItems : List Json → List Json
  | [] => []
  | x :: xs => sortKeys x :: sortItems xs

/-- Members sorted into `acc`, a later key replacing an equal earlier one. -/
def sortFields : List (String × Json) → List (String × Json) → List (String × Json)
  | [], acc => acc
  | (k, v) :: fs, acc => sortFields fs (insertSorted (k, sortKeys v) (acc.filter (·.1 ≠ k)))
end

end Json

end SchemaDesign
