import SchemaDesign.Json.Value
import SchemaDesign.Json.Number
import SchemaDesign.Text.Quote

/-!
# Reading typed values out of JSON

A decoder turns a JSON value into a value of a domain type or says why it cannot. An object is
read as a record: members with names the record does not know are ignored, a member that may be
absent may also be `null`, and a required member that is absent is reported after every member
that is present but malformed.

When several members are wrong, the one reported is the first in the text; absent members are
reported in the order the record lists them. `Decoded` carries this choice: it is an applicative
functor that keeps, of two refusals, the one with the smaller rank.
-/

namespace SchemaDesign

/-- Why a JSON value does not decode. -/
inductive DecodeError where
  /-- A value of the wrong shape: what was found, what was expected. -/
  | invalidType (found expected : String)
  /-- A value of the right shape out of range. -/
  | invalidValue (found expected : String)
  /-- A required member is absent. -/
  | missingField (name : String)
  /-- A name that is none of the choices. -/
  | unknownVariant (name : String) (choices : List String)
  /-- A member given twice. -/
  | duplicateField (name : String)
  /-- A sequence of the wrong length: how many items, what was expected. -/
  | invalidLength (count : Nat) (expected : String)
  /-- Any other refusal, in words. -/
  | other (message : String)
  /-- A choice given as neither a name nor an object: what was found. -/
  | notVariant (found : String)
  /-- A choice given as an object with no member, or with several of which the first reads. -/
  | notSingleKey
  /-- A choice given as an object with several members, the first of which is refused. -/
  | severalKeys (first : DecodeError)
  /-- A record by position with more items than fields: the items, the fields. -/
  | trailingItems (count arity : Nat)
  /-- A refusal of the value of the `step`-th member of an object or item of an array. -/
  | inside (step : Nat) (e : DecodeError)
  /-- A refusal concerning the key of the `step`-th member of an object. -/
  | atKey (step : Nat) (e : DecodeError)
  /-- A refusal met while reading contents that had been read ahead and kept. -/
  | buffered (e : DecodeError)
  /-- A number too large to hold, found once `consumed` characters of it were read. -/
  | numberOutOfRange (consumed : Nat)
  deriving DecidableEq, Repr, Inhabited

namespace DecodeError

/-- A name between backticks. -/
def tick (s : String) : String := "`" ++ s ++ "`"

/-- The choices in words: `A`, `A` or `B`, one of `A`, `B`, `C`. -/
def choiceText : List String → String
  | [] => "there are no variants"
  | [a] => "expected " ++ tick a
  | [a, b] => "expected " ++ tick a ++ " or " ++ tick b
  | cs => "expected one of " ++ ", ".intercalate (cs.map tick)

/-- The refusal of an object that should hold exactly one member, when read ahead. -/
def singleKeyText : String := "invalid value: map, expected map with a single key"

/-- The refusal in words. Contents read ahead are read by other means, which word two refusals
differently: a choice that is not a name, and a record with too many items. -/
def text (readAhead : Bool) : DecodeError → String
  | .invalidType f e => "invalid type: " ++ f ++ ", expected " ++ e
  | .invalidValue f e => "invalid value: " ++ f ++ ", expected " ++ e
  | .missingField n => "missing field " ++ tick n
  | .unknownVariant n cs => "unknown variant " ++ tick n ++ ", " ++ choiceText cs
  | .duplicateField n => "duplicate field " ++ tick n
  | .invalidLength n e => "invalid length " ++ toString n ++ ", expected " ++ e
  | .other m => m
  | .notVariant f =>
    if readAhead then "invalid type: " ++ f ++ ", expected string or map" else "expected value"
  | .notSingleKey => if readAhead then singleKeyText else "expected value"
  | .severalKeys e => if readAhead then singleKeyText else text readAhead e
  | .trailingItems n k =>
    if readAhead then
      "invalid length " ++ toString n ++ ", expected " ++ toString k ++
        (if k = 1 then " element in sequence" else " elements in sequence")
    else "trailing characters"
  | .inside _ e | .atKey _ e => text readAhead e
  | .buffered e => text true e
  | .numberOutOfRange _ => "number out of range"

/-- The refusal in words. -/
def message (e : DecodeError) : String := e.text false

end DecodeError

namespace Json

/-- How a value is named when it is not what was expected. A number too large to hold is
named by its literal, but is refused as out of range before it is ever named. -/
def unexpected : Json → String
  | .null => "unit value"
  | .bool b => "boolean " ++ DecodeError.tick (if b then "true" else "false")
  | .int i => "integer " ++ DecodeError.tick (intText i)
  | .float t =>
    "floating point " ++ DecodeError.tick (match readFloat t with
      | .ok x => x.compactText
      | .error _ => t)
  | .str s => "string " ++ debugQuote s
  | .arr _ => "sequence"
  | .obj _ => "map"

/-- The refusal of the first number too large to hold in a value, in the order of the text:
contents read ahead have every number in them read. -/
def outOfRange? : Json → Option DecodeError
  | .float t =>
    match readFloat t with
    | .error k => some (.numberOutOfRange k)
    | .ok _ => none
  | .arr xs => itemsOutOfRange? 0 xs
  | .obj fs => membersOutOfRange? 0 fs
  | _ => none
where
  /-- The first number out of range among items, the first at place `i`. -/
  itemsOutOfRange? (i : Nat) : List Json → Option DecodeError
    | [] => none
    | x :: xs =>
      match outOfRange? x with
      | some e => some (.inside i e)
      | none => itemsOutOfRange? (i + 1) xs
  /-- The first number out of range among members, the first at place `i`. -/
  membersOutOfRange? (i : Nat) : List (String × Json) → Option DecodeError
    | [] => none
    | (_, v) :: fs =>
      match outOfRange? v with
      | some e => some (.inside i e)
      | none => membersOutOfRange? (i + 1) fs

end Json

/-- A decoding result that remembers how early its refusal stands: lower ranks win. -/
abbrev Decoded (α : Type) := Except (Nat × DecodeError) α

namespace Decoded

/-- A value with no refusal. -/
def pure {α : Type} (a : α) : Decoded α := .ok a

/-- Applies a decoded function to a decoded argument, keeping the earlier refusal of the two. -/
def ap {α β : Type} (f : Decoded (α → β)) (x : Decoded α) : Decoded β :=
  match f, x with
  | .ok g, .ok a => .ok (g a)
  | .error e, .ok _ => .error e
  | .ok _, .error e => .error e
  | .error e1, .error e2 => .error (if e2.1 < e1.1 then e2 else e1)

/-- The refusal alone, its rank dropped. -/
def run {α : Type} (d : Decoded α) : Except DecodeError α := d.mapError (·.2)

end Decoded

/-- Decodes a whole value. -/
abbrev Decoder (α : Type) := Json → Except DecodeError α

namespace Decode

/-- The refusal of a value of the wrong kind where `expected` was expected. A number is read
before it is found to be of the wrong kind, so one too large to hold is refused as such. -/
def mismatch (j : Json) (expected : String) : DecodeError :=
  match j with
  | .float t =>
    match Json.readFloat t with
    | .error k => .numberOutOfRange k
    | .ok _ => .invalidType j.unexpected expected
  | _ => .invalidType j.unexpected expected

/-- A string. -/
def string : Decoder String
  | .str s => .ok s
  | j => .error (mismatch j "a string")

/-- A truth value. -/
def bool : Decoder Bool
  | .bool b => .ok b
  | j => .error (mismatch j "a boolean")

/-- A natural number not above `bound`, called `what` in messages. -/
def natUpTo (bound : Nat) (what : String) : Decoder Nat
  | .int i =>
    if 0 ≤ i ∧ i.toNat ≤ bound then .ok i.toNat
    else .error (.invalidValue (Json.unexpected (.int i)) what)
  | j => .error (mismatch j what)

/-- An unsigned 32-bit number. -/
def u32 : Decoder Nat := natUpTo (Nat.pow 2 32 - 1) "u32"

/-- An unsigned machine-size number. -/
def usize : Decoder Nat := natUpTo (Nat.pow 2 64 - 1) "usize"

/-- Items, each by `item`; the first bad item is reported. -/
def list {α : Type} (item : Decoder α) : Decoder (List α)
  | .arr xs => xs.zipIdx.mapM fun (x, i) => (item x).mapError (.inside i)
  | j => .error (mismatch j "a sequence")

/-- `null` as absent, anything else by `inner`. -/
def option {α : Type} (inner : Decoder α) : Decoder (Option α)
  | .null => .ok none
  | j => (inner j).map some

/-- A name from a closed set, read from a string. -/
def identifier {α : Type} (names : List String) (ofName? : String → Option α) : Decoder α
  | .str s =>
    match ofName? s with
    | some a => .ok a
    | none => .error (.unknownVariant s names)
  | j => .error (mismatch j "variant identifier")

/-- A choice written as an object: its single member names the choice and holds what the choice
carries, read by `arm`. An object with several members is refused, after its first member is
read. -/
def tagged {α : Type} (arm : String → Json → Except DecodeError α) :
    List (String × Json) → Except DecodeError α
  | [] => .error .notSingleKey
  | [(k, v)] => arm k v
  | (k, v) :: _ :: _ =>
    match arm k v with
    | .ok _ => .error .notSingleKey
    | .error e => .error (.severalKeys e)

/-- One of a closed set of choices carrying nothing, written as its name, or as an object whose
single member names it and holds `null`. -/
def choice {α : Type} (names : List String) (ofName? : String → Option α) : Decoder α
  | .str s => identifier names ofName? (.str s)
  | .obj fs => tagged (fun k v => match ofName? k, v with
      | none, _ => .error (.atKey 0 (.unknownVariant k names))
      | some a, .null => .ok a
      | some _, j => .error (.inside 0 (mismatch j "unit"))) fs
  | j => .error (.notVariant j.unexpected)

/-- The members of an object; `what` names the record in messages. -/
def members (what : String) : Json → Except DecodeError (List (String × Json))
  | .obj fs => .ok fs
  | j => .error (mismatch j what)

/-- The fields of a record as written: by name in an object, or by position in an array.
A positional record remembers what it is (`what`) and how many fields it has (`arity`). -/
inductive Record where
  | named (fs : List (String × Json))
  | positional (xs : List Json) (what : String) (arity : Nat)

/-- The fields of a record with `arity` fields; `what` names it in messages. -/
def record (what : String) (arity : Nat) : Json → Except DecodeError Record
  | .obj fs => .ok (.named fs)
  | .arr xs => .ok (.positional xs what arity)
  | j => .error (mismatch j what)

/-- Where a member stands in the text, each time it appears, with its value. -/
def occurrences (fs : List (String × Json)) (key : String) : List (Nat × Json) :=
  (fs.zipIdx).filterMap fun ((k, v), i) => if k = key then some (i, v) else none

/-- Decodes the first occurrence of a member, if it is there; a second occurrence is refused
where it stands. -/
def present {α : Type} (fs : List (String × Json)) (key : String) (dec : Decoder α) :
    Option (Decoded α) :=
  match occurrences fs key with
  | [] => none
  | (i, j) :: rest =>
    some <| match dec j, rest with
      | .error e, _ => .error (i, .inside i e)
      | .ok a, [] => .ok a
      | .ok _, (k, _) :: _ => .error (k, .atKey k (.duplicateField key))

/-- The field at place `order`, decoded, if the record has it. -/
def field? {α : Type} (r : Record) (order : Nat) (key : String) (dec : Decoder α) :
    Option (Decoded α) :=
  match r with
  | .named fs => present fs key dec
  | .positional xs _ _ => (xs[order]?).map fun j => (dec j).mapError fun e => (order, .inside order e)

/-- Ranks of absent fields come after every present one, in record order. -/
def absentRank (r : Record) (order : Nat) : Nat :=
  match r with
  | .named fs => fs.length + 1 + order
  | .positional xs _ _ => xs.length + 1 + order

/-- The refusal of a record that ends before a field without a default. -/
def absent (r : Record) (order : Nat) (named : DecodeError) : Nat × DecodeError :=
  match r with
  | .named _ => (absentRank r order, named)
  | .positional _ what arity =>
    (absentRank r order, .invalidLength order
      (what ++ " with " ++ toString arity ++ (if arity = 1 then " element" else " elements")))

/-- A required field. `order` is its place in the record. -/
def req {α : Type} (r : Record) (order : Nat) (key : String) (dec : Decoder α) : Decoded α :=
  (field? r order key dec).getD (.error (absent r order (.missingField key)))

/-- An optional field without a default: absent or `null` by name is `none`, but a positional
record must still reach it. -/
def opt {α : Type} (r : Record) (order : Nat) (key : String) (dec : Decoder α) :
    Decoded (Option α) :=
  match field? r order key (option dec), r with
  | some d, _ => d
  | none, .named _ => .ok none
  | none, .positional .. => .error (absent r order (.missingField key))

/-- A field with a default, taken when the field is absent (not when it is `null`, unless `dec`
accepts it). -/
def withDefault {α : Type} (r : Record) (order : Nat) (key : String) (dec : Decoder α)
    (dflt : α) : Decoded α :=
  (field? r order key dec).getD (.ok dflt)

/-- The decoded record; a positional record may not have more items than fields. -/
def finish {α : Type} (r : Record) (d : Decoded α) : Except DecodeError α :=
  match d, r with
  | .error e, _ => .error e.2
  | .ok a, .named _ => .ok a
  | .ok a, .positional xs _ arity =>
    if arity < xs.length then .error (.inside arity (.trailingItems xs.length arity)) else .ok a

end Decode

end SchemaDesign
