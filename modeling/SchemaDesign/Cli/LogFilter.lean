import SchemaDesign.Edit.Event
import SchemaDesign.Text.Blank
import SchemaDesign.Text.Unicode

/-!
# Which events are logged

A filter is a list of directives read from a comma-separated text such as `info` or
`schemaforge=info,schemaforge_core=trace`. Empty directives are skipped. A directive is read
character by character, without the blanks at its ends, as

    [word] ['[' [span] ['{' field '}'] ']'] ['=' [level]]

where a word starts with a letter, a digit, `-`, `:` or `_`. Its parts are cut from the
directive as written at the byte offsets found in the trimmed text, so a blank at its start
shifts them and a blank at its end stays in its last part. A word followed by `[` or `=` is a
target. A word alone is a level when it reads as one (a name
in any case, or a number up to 5 with an optional `+`), and otherwise a target that lets
everything of it through. An empty level after `=` means traces. A field is a name with an
optional `=value`; within brackets and braces `=` is only text.

A directive with a span, even an empty one, or with a field that carries a value, concerns
spans only. Events here are never inside a span, so it lets none of them through. Any other
directive applies to an event whose target starts with its target and which has every field it
names; the message counts as a field.

An event is logged when the most specific directive that applies to it lets its level through:
longer targets (counted in bytes) come first, then directives naming more fields. A later
directive with the same target and fields replaces an earlier one. With no directive that
applies, an event is not logged. A text with a malformed directive gives the filter `info`.
-/

namespace SchemaDesign

/-- One directive that applies to events: a target prefix, if any, the fields an event must
have, and the most detailed level it lets through, from 0 (nothing) to 5 (traces). -/
structure Directive where
  target : Option String
  fields : List String
  level : Nat
  deriving DecidableEq, Repr, Inhabited

/-- Whether a directive applies to an event of a target with these fields. -/
def Directive.appliesTo (d : Directive) (target : String) (fields : List String) : Bool :=
  (d.target.all fun t => target.startsWith t) && d.fields.all fields.contains

/-- A set of directives. -/
structure LogFilter where
  directives : List Directive
  deriving Repr, Inhabited

namespace LogFilter

/-- A level by name, in any case, or by number: decimal digits after an optional `+`, up to 5.
An empty text means errors only. -/
def parseLevel (s : String) : Option Nat :=
  let digits := match s.toList with
    | '+' :: ds => ds
    | ds => ds
  if s.isEmpty then some 1
  else if !digits.isEmpty && digits.all Char.isDigit then
    let n := digits.foldl (fun n d => n * 10 + (d.toNat - 48)) 0
    if n ≤ 5 then some n else none
  else
    let lower := s.toLower
    ["off", "error", "warn", "info", "debug", "trace"].findIdx? (· = lower)

/-- Where the reading of a directive stands; a part being read records the byte at which it
starts. -/
inductive Scan where
  /-- Nothing read yet. -/
  | start
  /-- A word that is a level or a target. -/
  | word (start : Nat)
  /-- Inside the span part, after its opening bracket. -/
  | span (start : Nat)
  /-- Inside a field, after its opening brace. -/
  | field (start : Nat)
  /-- After the closing brace of a field. -/
  | fieldClosed
  /-- After the closing bracket of the span part. -/
  | spanClosed
  /-- The level, after `=`. -/
  | level (start : Nat)
  deriving Repr, Inhabited

/-- What a directive names, as far as it has been read. -/
structure Parts where
  target : Option String := none
  span : Option String := none
  fields : List String := []
  deriving Repr, Inhabited

/-- The bytes of a text from one byte offset up to another, or to its end; `none` when an
offset falls inside a character. -/
def slice (text : String) (first : Nat) (last : Option Nat) : Option String :=
  let bytes := text.toUTF8.toList.drop first
  let bytes := match last with
    | some l => bytes.take (l - first)
    | none => bytes
  String.fromUTF8? (ByteArray.mk bytes.toArray)

/-- Whether a character may start a word. -/
def startsWord (c : Char) : Bool :=
  Unicode.isAlphanumeric c || c = '-' || c = ':' || c = '_'

/-- Reads the character at byte `i` of a directive whose parts are cut from `text`; `none`
when it cannot stand there. -/
def step (text : String) : Parts × Scan → Nat × Char → Option (Parts × Scan)
  | (p, .start), (i, '[') => some (p, .span (i + 1))
  | (p, .start), (i, c) => if startsWord c then some (p, .word i) else none
  | (p, .word s), (i, '=') =>
    (slice text s (some i)).map fun t => ({ p with target := some t }, .level (i + 1))
  | (p, .word s), (i, '[') =>
    (slice text s (some i)).map fun t => ({ p with target := some t }, .span (i + 1))
  | (p, .word s), _ => some (p, .word s)
  | (p, .span s), (i, ']') =>
    (slice text s (some i)).map fun t => ({ p with span := some t }, .spanClosed)
  | (p, .span s), (i, '\x7b') =>
    (slice text s (some i)).map fun t =>
      ({ p with span := if t.isEmpty then none else some t }, .field (i + 1))
  | (p, .span s), _ => some (p, .span s)
  | (p, .field s), (i, '\x7d') =>
    (slice text s (some i)).bind fun f =>
      if f.isEmpty then none else some ({ p with fields := p.fields ++ [f] }, .fieldClosed)
  | (p, .field s), _ => some (p, .field s)
  | (p, .fieldClosed), (_, ']') => some (p, .spanClosed)
  | (p, .spanClosed), (i, '=') => some (p, .level (i + 1))
  | (p, .level s), _ => some (p, .level s)
  | _, _ => none

/-- The directive the parts describe at a level: `none` when it concerns spans only. -/
def Parts.directive (p : Parts) (level : Nat) : Option Directive :=
  if p.span.isSome || p.fields.any (·.contains '=') then none
  else some ⟨p.target, p.fields, level⟩

/-- The directive once every character is read, the rest of a part cut from `text`: `none`
when malformed, `some none` when it concerns spans only. -/
def finish (text : String) : Parts × Scan → Option (Option Directive)
  | (_, .word s) =>
    (slice text s none).map fun t =>
      match parseLevel t with
      | some level => some ⟨none, [], level⟩
      | none => some ⟨some t, [], 5⟩
  | (p, .spanClosed) => some (p.directive 5)
  | (p, .level s) =>
    (slice text s none).bind fun l =>
      if l.isEmpty then some (p.directive 5) else (parseLevel l).map p.directive
  | _ => none

/-- The characters of a text with the byte offset of each. -/
def withOffsets (chars : List Char) : List (Nat × Char) :=
  (chars.foldl (fun (acc : Nat × List (Nat × Char)) c => (acc.1 + c.utf8Size, (acc.1, c) :: acc.2))
    (0, [])).2.reverse

/-- One directive: `none` when malformed, `some none` when it concerns spans only. A directive
that is a level as it stands is one. Otherwise its characters are read without the blanks at
either end, but its parts are cut from the text as it stands at the offsets so found, so that a
blank at its start shifts every part by its width. -/
def parseDirective (s : String) : Option (Option Directive) :=
  match parseLevel s with
  | some level => some (some ⟨none, [], level⟩)
  | none =>
    let trimmed := ((s.toList.dropWhile isBlank).reverse.dropWhile isBlank).reverse
    ((withOffsets trimmed).foldlM (step s) ({}, .start)).bind (finish s)

/-- The filter a text describes, if every directive is well formed. -/
def parse (spec : String) : Option LogFilter :=
  (((spec.splitOn ",").filter (!·.isEmpty)).mapM parseDirective).map fun ds => ⟨ds.filterMap id⟩

/-- The filter that logs errors, warnings and information. -/
def info : LogFilter := ⟨[⟨none, [], 3⟩]⟩

/-- The filter a setting describes; a missing or malformed setting gives `info`. -/
def ofSetting (setting : Option String) : LogFilter := (setting.bind parse).getD info

/-- How long a directive's target is: 0 without one, else its bytes and one. -/
def targetRank : Option String → Nat
  | none => 0
  | some t => t.utf8ByteSize + 1

/-- Targets in order, a missing one first. -/
def compareTargets : Option String → Option String → Ordering
  | some a, some b => compare a b
  | none, none => .eq
  | none, some _ => .lt
  | some _, none => .gt

/-- Lists of field names in lexicographic order. -/
def compareNames : List String → List String → Ordering
  | [], [] => .eq
  | [], _ :: _ => .lt
  | _ :: _, [] => .gt
  | a :: as, b :: bs => (compare a b).then (compareNames as bs)

/-- How specific a directive is beside another: the longer target first, then more fields;
the rest only orders directives that cannot apply to one event together, and only directives
with the same target and fields tie. -/
def compareSpecificity (a b : Directive) : Ordering :=
  (compare (targetRank a.target) (targetRank b.target)).then
    ((compare a.fields.length b.fields.length).then
      ((compareTargets a.target b.target).then (compareNames a.fields b.fields)))

/-- The directive that decides for an event of a target with these fields: the most specific
that applies, the later of two that tie. -/
def decisive (f : LogFilter) (target : String) (fields : List String) : Option Directive :=
  (f.directives.filter (·.appliesTo target fields)).foldl
    (fun (best : Option Directive) d =>
      match best with
      | some b => if compareSpecificity d b = .lt then best else some d
      | none => some d) none

/-- Whether an event is logged. -/
def enabled (f : LogFilter) (e : Event) : Bool :=
  match f.decisive e.target.path ("message" :: e.fields.map (·.1)) with
  | some d => e.level.rank ≤ d.level
  | none => false

end LogFilter

end SchemaDesign
