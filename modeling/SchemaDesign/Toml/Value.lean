import SchemaDesign.Binary64
import SchemaDesign.Text.Quote

/-!
# TOML documents

The settings file is a TOML document. A document is read into a tree of values, each with the
span of text it was written at, so that a refusal can point at the place it concerns.

Tables come about in three ways, and the rules on defining a table twice depend on which: by a
header `[a.b]`, implicitly as a parent named on a header's path, or by a dotted key `a.b = 1`.
An inline table `{ ... }` is a value like any other and cannot be extended later.

A refusal is shown with its place, as a line of the text with the span underlined:

```
TOML parse error at line 1, column 1
  |
1 | [naming.table]
  | ^^^^^^^^^^^^^^
missing field `max`
```
-/

namespace SchemaDesign

namespace Toml

/-- A stretch of a text by byte offsets, its end excluded. -/
structure Span where
  start : Nat
  stop : Nat
  deriving DecidableEq, Repr, Inhabited

/-- How a table came to be. -/
inductive Origin where
  /-- Named by a header. -/
  | header
  /-- A parent on a header's path, not yet named by a header of its own. -/
  | implicit
  /-- A parent on a dotted key's path. -/
  | dotted
  deriving DecidableEq, Repr, Inhabited

/-- A value of a document with the span it was written at. A table made by a header spans the
header and its key-value pairs; implicit and dotted tables have no span. -/
inductive Value where
  | string (s : String) (span : Span)
  | integer (i : Int) (span : Span)
  /-- A float, as written without underscores. -/
  | float (text : String) (span : Span)
  | boolean (b : Bool) (span : Span)
  | datetime (text : String) (span : Span)
  | array (items : List Value) (span : Span)
  | inlineTable (entries : List (String × Span × Value)) (span : Span)
  | table (origin : Origin) (entries : List (String × Span × Value)) (span : Option Span)
  /-- The tables of headers `[[a]]`, in order. -/
  | tableArray (tables : List Value)
  deriving Repr, Inhabited

/-- An entry of a table: its key, the span of the key, and its value. -/
abbrev Entry := String × Span × Value

namespace Value

/-- The span a value was written at, if it has one. -/
def span? : Value → Option Span
  | .string _ s | .integer _ s | .float _ s | .boolean _ s | .datetime _ s | .array _ s
  | .inlineTable _ s => some s
  | .table _ _ s => s
  | .tableArray _ => none

/-- The name of a kind of value that is not a table. -/
def typeName : Value → String
  | .string .. => "string"
  | .integer .. => "integer"
  | .float .. => "float"
  | .boolean .. => "boolean"
  | .datetime .. => "datetime"
  | .array .. => "array"
  | .inlineTable .. => "inline table"
  | .table .. => "table"
  | .tableArray _ => "array of tables"

end Value

/-- The decimal digits of a float text and the power of ten they are scaled by: `1.5e3` is
`(15, 2)`. -/
def floatParts (text : String) : Bool × List Char × Int :=
  let chars := text.toList
  let negative := chars.head? = some '-'
  let unsigned := chars.dropWhile (fun c => c = '+' || c = '-')
  let mantissa := unsigned.takeWhile (fun c => c ≠ 'e' && c ≠ 'E')
  let exponentText := (unsigned.dropWhile (fun c => c ≠ 'e' && c ≠ 'E')).drop 1
  let expNegative := exponentText.head? = some '-'
  let expDigits := exponentText.filter Char.isDigit
  let exponent : Int :=
    let n : Int := expDigits.foldl (fun n d => n * 10 + (d.toNat - 48)) 0
    if expNegative then -n else n
  let intPart := mantissa.takeWhile (· ≠ '.')
  let fracPart := (mantissa.dropWhile (· ≠ '.')).drop 1
  (negative, intPart ++ fracPart, exponent - fracPart.length)

/-- A float as the nearest binary64 number shows it: with a point and without an exponent,
always with a digit after the point, as `1e3` is `1000.0`; the infinities are `inf` and `-inf`
and not-a-number is `NaN`, whatever its sign. -/
def floatText (text : String) : String :=
  if text.endsWith "inf" then (if text.startsWith "-" then "-inf" else "inf")
  else if text.endsWith "nan" then "NaN"
  else
    let (negative, digits, scale) := floatParts text
    let value := digits.foldl (fun n d => n * 10 + (d.toNat - 48)) 0
    (Binary64.ofDecimal negative value scale).pointText

namespace Value

/-- How a value is named when it is not what was expected. -/
def unexpected : Value → String
  | .string s _ => "string " ++ debugQuote s
  | .integer i _ => "integer `" ++ toString i ++ "`"
  | .float t _ => "floating point `" ++ floatText t ++ "`"
  | .boolean b _ => "boolean `" ++ (if b then "true" else "false") ++ "`"
  | .datetime .. => "map"
  | .array .. => "sequence"
  | .inlineTable .. => "map"
  | .table .. => "map"
  | .tableArray _ => "sequence"

end Value

/-- A refused document: the message and the span it points at, if known. -/
structure Fault where
  message : String
  span : Option Span
  deriving Repr, Inhabited

/-- The bytes of a text. -/
def textBytes (text : String) : List UInt8 := text.toUTF8.toList

/-- Line (from 0) and column (from 0) of a byte offset as the display counts them: the column
counts the characters before the offset, unless the offset starts a character of several bytes,
which counts bytes; an offset at the end is one column past the last byte. -/
def position (text : String) (offset : Nat) : Nat × Nat :=
  let bytes := textBytes text
  if bytes.isEmpty then (0, offset)
  else
    let safe := min offset (bytes.length - 1)
    let beyond := offset - safe
    let before := bytes.take safe
    let lineStart := before.length - (before.reverse.takeWhile (· ≠ 10)).length
    let line := (bytes.take lineStart).count 10
    let piece := (bytes.drop lineStart).take (safe - lineStart + 1)
    let column := match String.fromUTF8? (ByteArray.mk piece.toArray) with
      | some s => s.length - 1
      | none => safe - lineStart
    (line, column + beyond)

/-- A line of a text, counted from 0: the line break ending it, a line feed or a carriage return
and a line feed, is not part of it, but a carriage return alone is. -/
def lineOf (text : String) (line : Nat) : String :=
  match (text.splitOn "\n").drop line with
  | content :: _ :: _ => if content.endsWith "\r" then (content.dropEnd 1).toString else content
  | [content] => content
  | [] => ""

/-- The refusal as shown to the user, ending with a line break. -/
def Fault.render (f : Fault) (text : String) : String :=
  match f.span with
  | none => f.message ++ "\n"
  | some span =>
    let (line, column) := position text span.start
    let lineNumber := toString (line + 1)
    let gutter := String.ofList (List.replicate (lineNumber.length + 1) ' ')
    let content := lineOf text line
    let width := min (span.stop - span.start) (content.utf8ByteSize - column)
    "TOML parse error at line " ++ lineNumber ++ ", column " ++ toString (column + 1) ++ "\n" ++
      gutter ++ "|\n" ++
      lineNumber ++ " | " ++ content ++ "\n" ++
      gutter ++ "|" ++ String.ofList (List.replicate (column + 1) ' ') ++
      String.ofList (List.replicate (max width 1) '^') ++ "\n" ++
      f.message ++ "\n"

end Toml

end SchemaDesign
