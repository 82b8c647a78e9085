import SchemaDesign.Config
import SchemaDesign.Toml.Parse

/-!
# Editor settings from a TOML file

A settings file holds the members of the settings at its top level:

```
allow_delete_last_schema = false

[naming.table]
min = 1
max = 4
```

Absent settings keep their defaults, and keys the settings do not know are ignored. Bounds need
both numbers, given as a table or as an array `[min, max]`; rules given as an array list bounds
in the order schema, table, column, index, constraint, relationship, and those left out keep
their defaults.

Members are read in the order written and the first that does not read is the one refused. A
refusal points at the value it concerns; a value with no place of its own, a table made by
dotted keys, is pointed at through its key.
-/

namespace SchemaDesign

namespace Toml

/-- The refusal of a value of the wrong kind. -/
def invalidType (v : Value) (expected : String) : Fault :=
  ⟨"invalid type: " ++ v.unexpected ++ ", expected " ++ expected, none⟩

/-- Gives a refusal with no place the place of a member's value, or else of its key. -/
def locate {α : Type} (v : Value) (keySpan : Span) : Except Fault α → Except Fault α
  | .error f => .error (if f.span.isSome then f else { f with span := some (v.span?.getD keySpan) })
  | .ok a => .ok a

/-- Gives a refusal with no place the place of an array item. -/
def locateItem {α : Type} (v : Value) : Except Fault α → Except Fault α
  | .error f => .error (if f.span.isSome then f else { f with span := v.span? })
  | .ok a => .ok a

/-- Reads a count. -/
def count : Value → Except Fault Nat
  | .integer i _ =>
    if i ≥ 0 then .ok i.toNat
    else .error ⟨"invalid value: integer `" ++ toString i ++ "`, expected usize", none⟩
  | v => .error (invalidType v "usize")

/-- Reads a boolean. -/
def boolean : Value → Except Fault Bool
  | .boolean b _ => .ok b
  | v => .error (invalidType v "a boolean")

/-- The members of a value read as a record. -/
inductive Members where
  /-- Members by key: a table's entries. -/
  | named (entries : List Entry)
  /-- Members by position: an array's items. -/
  | positional (items : List Value)

/-- The members of a value that can be read as a record. A date or time reads as a table with a
single key that no record knows. -/
def members? : Value → Option Members
  | .table _ es _ | .inlineTable es _ => some (.named es)
  | .array items _ => some (.positional items)
  | .tableArray ts => some (.positional ts)
  | .datetime t s => some (.named [("$__toml_private_datetime", s, .string t s)])
  | _ => none

/-- The bounds named in table entries, read in order. -/
def boundsMembers : List Entry → Option Nat → Option Nat → Except Fault (Option Nat × Option Nat)
  | [], lo, hi => .ok (lo, hi)
  | (k, ks, v) :: rest, lo, hi =>
    if k = "min" then do
      let n ← locate v ks (count v)
      boundsMembers rest (some n) hi
    else if k = "max" then do
      let n ← locate v ks (count v)
      boundsMembers rest lo (some n)
    else boundsMembers rest lo hi

/-- Reads length bounds. -/
def bounds (v : Value) : Except Fault LengthBounds :=
  let shortBy (n : Nat) : Fault :=
    ⟨"invalid length " ++ toString n ++ ", expected struct LengthBounds with 2 elements", none⟩
  match members? v with
  | none => .error (invalidType v "struct LengthBounds")
  | some (.named es) => do
    match ← boundsMembers es none none with
    | (some lo, some hi) => pure ⟨lo, hi⟩
    | (none, _) => throw ⟨"missing field `min`", none⟩
    | (_, none) => throw ⟨"missing field `max`", none⟩
  | some (.positional items) =>
    match items with
    | a :: b :: _ => do
      let lo ← locateItem a (count a)
      let hi ← locateItem b (count b)
      pure ⟨lo, hi⟩
    | [a] => do
      let _ ← locateItem a (count a)
      throw (shortBy 1)
    | [] => throw (shortBy 0)

/-- Sets the bounds of one kind of name. -/
def withBounds (r : NamingRules) (kind : String) (b : LengthBounds) : NamingRules :=
  if kind = "schema" then { r with schema := b }
  else if kind = "table" then { r with table := b }
  else if kind = "column" then { r with column := b }
  else if kind = "index" then { r with index := b }
  else if kind = "constraint" then { r with constraint := b }
  else if kind = "relationship" then { r with relationship := b }
  else r

/-- The kinds of names, in the order of the rules. -/
def ruleKinds : List String := ["schema", "table", "column", "index", "constraint", "relationship"]

/-- The rules named in table entries, read in order. -/
def ruleMembers : List Entry → NamingRules → Except Fault NamingRules
  | [], r => .ok r
  | (k, ks, v) :: rest, r =>
    if ruleKinds.contains k then do
      let b ← locate v ks (bounds v)
      ruleMembers rest (withBounds r k b)
    else ruleMembers rest r

/-- The rules given by position. -/
def ruleItems : List String → List Value → NamingRules → Except Fault NamingRules
  | k :: ks, v :: vs, r => do
    let b ← locateItem v (bounds v)
    ruleItems ks vs (withBounds r k b)
  | _, _, r => .ok r

/-- Reads naming rules. -/
def naming (v : Value) : Except Fault NamingRules :=
  match members? v with
  | none => .error (invalidType v "struct NamingRules")
  | some (.named es) => ruleMembers es {}
  | some (.positional items) => ruleItems ruleKinds items {}

/-- The settings named in the root table, read in order. -/
def settingMembers : List Entry → EditorConfig → Except Fault EditorConfig
  | [], c => .ok c
  | (k, ks, v) :: rest, c =>
    if k = "naming" then do
      let n ← locate v ks (naming v)
      settingMembers rest { c with naming := n }
    else if k = "allow_delete_last_schema" then do
      let b ← locate v ks (boolean v)
      settingMembers rest { c with allowDeleteLastSchema := b }
    else settingMembers rest c

end Toml

/-- Reads editor settings from a TOML text; a refusal is shown with its place. -/
def EditorConfig.ofToml (text : String) : Except String EditorConfig :=
  match Toml.parseDocument text >>= fun root => Toml.settingMembers root {} with
  | .ok c => .ok c
  | .error f => .error (f.render text)

end SchemaDesign
