import SchemaDesign.Json.Value

/-!
# Reading JSON text

`Json.parse` reads one JSON value surrounded by blanks (space, tab, line feed, carriage return)
and refuses anything else with a `SyntaxError`: what was wrong and where, as a line (from 1)
and a column counted in bytes of the UTF-8 text (from 0).

Where the reader stands when it refuses is part of the message. Two places are used: the end of
what has been consumed (`here`), or one byte beyond it, bounded by the end of the text (`ahead`),
for a refusal that only looked at the next character. Strings must pair their surrogate escapes,
objects and arrays nest at most 127 deep, and a number may not start with a redundant zero.
-/

namespace SchemaDesign

/-- What is wrong with a JSON text. -/
inductive SyntaxCode where
  /-- The text ends where a value should start or continue. -/
  | eofValue
  /-- The text ends inside an array. -/
  | eofList
  /-- The text ends inside an object. -/
  | eofObject
  /-- The text ends inside a string. -/
  | eofString
  /-- A member name is not followed by a colon. -/
  | expectedColon
  /-- An array item is followed by neither a comma nor a bracket. -/
  | expectedListCommaOrEnd
  /-- An object member is followed by neither a comma nor a brace. -/
  | expectedObjectCommaOrEnd
  /-- A literal such as `null` is misspelt. -/
  | expectedIdent
  /-- No value starts here. -/
  | expectedValue
  /-- An escape sequence is not one of JSON's. -/
  | invalidEscape
  /-- A number is malformed. -/
  | invalidNumber
  /-- A control character stands unescaped inside a string. -/
  | controlCharacter
  /-- An object member name is not a string. -/
  | keyMustBeString
  /-- A surrogate escape has no partner. -/
  | loneSurrogate
  /-- A leading surrogate escape is not followed by a second escape. -/
  | unexpectedEndOfHexEscape
  /-- A comma stands before a closing bracket or brace. -/
  | trailingComma
  /-- Something follows the value. -/
  | trailingCharacters
  /-- Arrays and objects nest too deep. -/
  | recursionLimit
  deriving DecidableEq, Repr, Inhabited

namespace SyntaxCode

/-- The words for each fault. -/
def text : SyntaxCode → String
  | .eofValue => "EOF while parsing a value"
  | .eofList => "EOF while parsing a list"
  | .eofObject => "EOF while parsing an object"
  | .eofString => "EOF while parsing a string"
  | .expectedColon => "expected `:`"
  | .expectedListCommaOrEnd => "expected `,` or `]`"
  | .expectedObjectCommaOrEnd => "expected `,` or `\x7d`"
  | .expectedIdent => "expected ident"
  | .expectedValue => "expected value"
  | .invalidEscape => "invalid escape"
  | .invalidNumber => "invalid number"
  | .controlCharacter => "control character (\\u0000-\\u001F) found while parsing a string"
  | .keyMustBeString => "key must be a string"
  | .loneSurrogate => "lone leading surrogate in hex escape"
  | .unexpectedEndOfHexEscape => "unexpected end of hex escape"
  | .trailingComma => "trailing comma"
  | .trailingCharacters => "trailing characters"
  | .recursionLimit => "recursion limit exceeded"

end SyntaxCode

/-- A refused JSON text: the fault and the byte offset it is reported at. -/
structure SyntaxError where
  code : SyntaxCode
  offset : Nat
  deriving Repr, Inhabited

/-- Line (from 1) and byte column (from 0) of a byte offset into a text. -/
def lineColumn (text : String) (offset : Nat) : Nat × Nat :=
  let step (acc : Nat × Nat × Nat) (c : Char) : Nat × Nat × Nat :=
    let (pos, line, col) := acc
    if pos ≥ offset then acc
    else if c = '\n' then (pos + 1, line + 1, 0)
    else
      -- a character cut by the offset counts only its bytes before it
      let n := min c.utf8Size (offset - pos)
      (pos + n, line, col + n)
  let (_, line, col) := text.toList.foldl step (0, 1, 0)
  (line, col)

namespace SyntaxError

/-- The message, with the place: `expected value at line 1 column 3`. -/
def message (e : SyntaxError) (text : String) : String :=
  let (line, col) := lineColumn text e.offset
  e.code.text ++ " at line " ++ toString line ++ " column " ++ toString col

end SyntaxError

namespace Json

/-- The reader's place: the characters left and the bytes consumed. -/
structure Cursor where
  rest : List Char
  offset : Nat
  /-- Bytes of the whole text. -/
  total : Nat

namespace Cursor

/-- The next character, if any. -/
def peek? (c : Cursor) : Option Char := c.rest.head?

/-- The cursor past one character. -/
def advance (c : Cursor) : Cursor :=
  match c.rest with
  | [] => c
  | x :: xs => { c with rest := xs, offset := c.offset + x.utf8Size }

/-- A refusal at the end of what was consumed. -/
def here (c : Cursor) (code : SyntaxCode) : SyntaxError := ⟨code, c.offset⟩

/-- A refusal one byte ahead of what was consumed. -/
def ahead (c : Cursor) (code : SyntaxCode) : SyntaxError := ⟨code, min c.total (c.offset + 1)⟩

/-- The cursor past blanks. -/
def skipBlanks (c : Cursor) : Cursor :=
  let blanks := c.rest.takeWhile (fun x => x = ' ' || x = '\n' || x = '\t' || x = '\r')
  { c with rest := c.rest.drop blanks.length, offset := c.offset + blanks.length }

end Cursor

/-- What a step of the reader gives: a refusal, or a result and the cursor after it. -/
abbrev Step (α : Type) := Except SyntaxError (α × Cursor)

/-- Reads the rest of a literal whose first letter was consumed. -/
def literal (expected : List Char) (value : Json) (c : Cursor) : Step Json :=
  match expected with
  | [] => .ok (value, c)
  | e :: es =>
    match c.peek? with
    | none => .error (c.here .eofValue)
    | some x =>
      if x = e then literal es value c.advance
      else .error (c.advance.here .expectedIdent)

/-- The value of a hexadecimal digit. -/
def hexValue (x : Char) : Option Nat :=
  if '0' ≤ x ∧ x ≤ '9' then some (x.toNat - 48)
  else if 'a' ≤ x ∧ x ≤ 'f' then some (x.toNat - 87)
  else if 'A' ≤ x ∧ x ≤ 'F' then some (x.toNat - 55)
  else none

/-- Reads the four hexadecimal digits of a `\u` escape. -/
def hexEscape (c : Cursor) : Step Nat :=
  match c.rest with
  | a :: b :: d :: e :: _ =>
    let c' := c.advance.advance.advance.advance
    match hexValue a, hexValue b, hexValue d, hexValue e with
    | some a, some b, some d, some e => .ok (((a * 16 + b) * 16 + d) * 16 + e, c')
    | _, _, _, _ => .error (c'.here .invalidEscape)
  | _ => .error ⟨.eofString, c.total⟩

/-- Reads a `\u` escape whose `\u` was consumed, pairing a leading surrogate with a trailing one. -/
def unicodeEscape (c : Cursor) : Except SyntaxError (Char × Cursor) := do
  let (n, c) ← hexEscape c
  if 0xDC00 ≤ n ∧ n ≤ 0xDFFF then throw (c.here .loneSurrogate)
  if n < 0xD800 ∨ 0xDBFF < n then return (Char.ofNat n, c)
  match c.peek? with
  | none => throw (c.here .eofString)
  | some x =>
    if x ≠ '\\' then throw (c.advance.here .unexpectedEndOfHexEscape)
    let c := c.advance
    match c.peek? with
    | none => throw (c.here .eofString)
    | some y =>
      if y ≠ 'u' then throw (c.advance.here .unexpectedEndOfHexEscape)
      let (m, c) ← hexEscape c.advance
      if m < 0xDC00 ∨ 0xDFFF < m then throw (c.here .loneSurrogate)
      return (Char.ofNat ((n - 0xD800) * 0x400 + (m - 0xDC00) + 0x10000), c)

/-- Reads an escape whose backslash was consumed. -/
def escape (c : Cursor) : Step Char :=
  match c.peek? with
  | none => .error (c.here .eofString)
  | some x =>
    let c' := c.advance
    if x = '"' then .ok ('"', c')
    else if x = '\\' then .ok ('\\', c')
    else if x = '/' then .ok ('/', c')
    else if x = 'b' then .ok ('\x08', c')
    else if x = 'f' then .ok ('\x0c', c')
    else if x = 'n' then .ok ('\n', c')
    else if x = 'r' then .ok ('\r', c')
    else if x = 't' then .ok ('\t', c')
    else if x = 'u' then unicodeEscape c'
    else .error (c'.here .invalidEscape)

/-- Reads the rest of a string whose opening quote was consumed; `fuel` bounds its length. -/
def stringBody (fuel : Nat) (acc : List Char) (c : Cursor) : Step String :=
  match fuel with
  | 0 => .error ⟨.eofString, c.total⟩
  | fuel + 1 =>
    match c.peek? with
    | none => .error ⟨.eofString, c.total⟩
    | some x =>
      if x = '"' then .ok (String.ofList acc.reverse, c.advance)
      else if x = '\\' then
        match escape c.advance with
        | .ok (ch, c') => stringBody fuel (ch :: acc) c'
        | .error e => .error e
      else if x.toNat < 0x20 then .error (c.advance.here .controlCharacter)
      else stringBody fuel (x :: acc) c.advance

/-- The digits at the front of the cursor, and the cursor after them. -/
def digits (c : Cursor) : List Char × Cursor :=
  let ds := c.rest.takeWhile Char.isDigit
  (ds, { c with rest := c.rest.drop ds.length, offset := c.offset + ds.length })

/-- Reads an exponent whose `e` or `E` is next. -/
def exponent (c : Cursor) : Except SyntaxError Cursor :=
  let c := c.advance
  let c := match c.peek? with
    | some '+' => c.advance
    | some '-' => c.advance
    | _ => c
  match c.peek? with
  | none => .error (c.here .eofValue)
  | some x =>
    if x.isDigit then .ok (digits c.advance).2
    else .error (c.advance.here .invalidNumber)

/-- Reads the fraction and exponent after the integral digits; `true` if there was either. -/
def numberTail (c : Cursor) : Except SyntaxError (Bool × Cursor) :=
  match c.peek? with
  | some '.' =>
    let (ds, c) := digits c.advance
    if ds.isEmpty then
      match c.peek? with
      | some _ => .error (c.ahead .invalidNumber)
      | none => .error (c.ahead .eofValue)
    else
      match c.peek? with
      | some 'e' | some 'E' => (exponent c).map (true, ·)
      | _ => .ok (true, c)
  | some 'e' | some 'E' => (exponent c).map (true, ·)
  | _ => .ok (false, c)

/-- The digits of a decimal text as a number. -/
def decimalValue (ds : List Char) : Nat :=
  ds.foldl (fun n d => n * 10 + (d.toNat - 48)) 0

/-- The largest integral literal kept as an integer: above it a number is read as a float. -/
def integralLimit (negative : Bool) : Nat :=
  if negative then Nat.pow 2 63 else Nat.pow 2 64 - 1

/-- Reads a number whose sign, if any, was consumed; `start` is where its text begins. -/
def number (negative : Bool) (start : Cursor) (c : Cursor) : Step Json :=
  match c.peek? with
  | none => .error (c.here .eofValue)
  | some x =>
    if x = '0' then
      let c1 := c.advance
      match c1.peek? with
      | some y =>
        if y.isDigit then .error (c1.ahead .invalidNumber)
        else finish [x] c1
      | none => finish [x] c1
    else if x.isDigit then
      let (ds, c1) := digits c.advance
      finish (x :: ds) c1
    else .error (c.advance.here .invalidNumber)
where
  /-- The number after its integral digits `ds`. -/
  finish (ds : List Char) (c1 : Cursor) : Step Json :=
    match numberTail c1 with
    | .error e => .error e
    | .ok (fractional, c2) =>
      let text := String.ofList (start.rest.take (c2.offset - start.offset))
      let n := decimalValue ds
      if fractional || integralLimit negative < n || (negative && n = 0) then .ok (.float text, c2)
      else .ok (.int (if negative then -(n : Int) else n), c2)

/-- Where a value stands in its text, by byte offsets: its first byte and the byte after its
last, with the places of the items of an array and of the members of an object. A member also
records where its key ends, just after the closing quote. An array or object
that the text breaks off inside is open: its stop is where the reader stood when it refused, at
the next item or member it was about to read. -/
inductive Spot where
  | leaf (start stop : Nat)
  | items (start stop : Nat) (closed : Bool) (items : List Spot)
  | members (start stop : Nat) (closed : Bool) (members : List (Nat × Spot))
  deriving Repr, Inhabited

namespace Spot

/-- The offset of the first byte. -/
def start : Spot → Nat
  | .leaf s _ | .items s _ _ _ | .members s _ _ _ => s

/-- The offset after the last byte, or where the reader stopped inside an open value. -/
def stop : Spot → Nat
  | .leaf _ e | .items _ e _ _ | .members _ e _ _ => e

/-- Whether the value was read to its end. -/
def closed : Spot → Bool
  | .leaf .. => true
  | .items _ _ c _ | .members _ _ c _ => c

/-- The offset after the last byte of a value read to its end. -/
def end? (s : Spot) : Option Nat := if s.closed then some s.stop else none

end Spot

/-- What the reader gives for a part of a text: the part and the cursor after it, or a refusal
with what had been read of the part before it. -/
abbrev Reading (α β : Type) := Except (SyntaxError × β) (α × Cursor)

/-- A value read with its place; a refused scalar leaves nothing read. -/
def spotted (start : Cursor) : Step Json → Reading (Json × Spot) (Option (Json × Spot))
  | .ok (v, c) => .ok ((v, .leaf start.offset c.offset), c)
  | .error e => .error (e, none)

/-- Object members as read: key, value, where the key ends, and the value's place. -/
abbrev Members := List (String × Json × Nat × Spot)

/-- An object and its place, from its members. -/
def objectOf (fs : Members) (start stop : Nat) (closed : Bool) : Json × Spot :=
  (.obj (fs.map fun (k, v, _, _) => (k, v)),
    .members start stop closed (fs.map fun (_, _, keyEnd, spot) => (keyEnd, spot)))

mutual
/-- Reads one value after blanks. `fuel` bounds the nesting, `depth` counts the levels left. -/
def value (fuel depth : Nat) (c : Cursor) : Reading (Json × Spot) (Option (Json × Spot)) :=
  match fuel with
  | 0 => .error (c.here .eofValue, none)
  | fuel + 1 =>
    let c := c.skipBlanks
    match c.peek? with
    | none => .error (c.ahead .eofValue, none)
    | some x =>
      if x = 'n' then spotted c (literal ['u', 'l', 'l'] .null c.advance)
      else if x = 't' then spotted c (literal ['r', 'u', 'e'] (.bool true) c.advance)
      else if x = 'f' then spotted c (literal ['a', 'l', 's', 'e'] (.bool false) c.advance)
      else if x = '-' then spotted c (number true c c.advance)
      else if x.isDigit then spotted c (number false c c)
      else if x = '"' then spotted c ((stringBody c.total [] c.advance).map fun (s, c') => (.str s, c'))
      else if x = '[' then
        if depth ≤ 1 then .error (c.ahead .recursionLimit, none)
        else
          match items fuel (depth - 1) true [] c.advance with
          | .ok (xs, c') =>
            .ok ((.arr (xs.map (·.1)), .items c.offset c'.offset true (xs.map (·.2))), c')
          | .error (e, xs, stuck) =>
            .error (e, some (.arr (xs.map (·.1)), .items c.offset stuck false (xs.map (·.2))))
      else if x = '\x7b' then
        if depth ≤ 1 then .error (c.ahead .recursionLimit, none)
        else
          match members fuel (depth - 1) true [] c.advance with
          | .ok (fs, c') => .ok (objectOf fs c.offset c'.offset true, c')
          | .error (e, fs, stuck) => .error (e, some (objectOf fs c.offset stuck false))
      else .error (c.ahead .expectedValue, none)

/-- Reads array items up to the closing bracket, which it consumes. A refusal keeps the items
read, the one broken off included, and where the reader stood. -/
def items (fuel depth : Nat) (first : Bool) (acc : List (Json × Spot)) (c : Cursor) :
    Reading (List (Json × Spot)) (List (Json × Spot) × Nat) :=
  match fuel with
  | 0 => .error (c.here .eofList, acc.reverse, c.offset)
  | fuel + 1 =>
    let c := c.skipBlanks
    match c.peek? with
    | none => .error (c.ahead .eofList, acc.reverse, c.offset)
    | some x =>
      if x = ']' then .ok (acc.reverse, c.advance)
      else if first then
        match value fuel depth c with
        | .ok (v, c') => items fuel depth false (v :: acc) c'
        | .error (e, p) => .error (e, acc.reverse ++ p.toList, c.offset)
      else if x = ',' then
        let c := c.advance.skipBlanks
        match c.peek? with
        | some ']' => .error (c.ahead .trailingComma, acc.reverse, c.offset)
        | none => .error (c.ahead .eofValue, acc.reverse, c.offset)
        | some _ =>
          match value fuel depth c with
          | .ok (v, c') => items fuel depth false (v :: acc) c'
          | .error (e, p) => .error (e, acc.reverse ++ p.toList, c.offset)
      else .error (c.ahead .expectedListCommaOrEnd, acc.reverse, c.offset)

/-- Reads object members up to the closing brace, which it consumes. A refusal keeps the members
read, the one broken off included, and where the reader stood. -/
def members (fuel depth : Nat) (first : Bool) (acc : Members) (c : Cursor) :
    Reading Members (Members × Nat) :=
  match fuel with
  | 0 => .error (c.here .eofObject, acc.reverse, c.offset)
  | fuel + 1 =>
    let c := c.skipBlanks
    match c.peek? with
    | none => .error (c.ahead .eofObject, acc.reverse, c.offset)
    | some x =>
      if x = '\x7d' then .ok (acc.reverse, c.advance)
      else if first then
        if x = '"' then member fuel depth acc c
        else .error (c.ahead .keyMustBeString, acc.reverse, c.offset)
      else if x = ',' then
        let c := c.advance.skipBlanks
        match c.peek? with
        | some '"' => member fuel depth acc c
        | some '\x7d' => .error (c.ahead .trailingComma, acc.reverse, c.offset)
        | some _ => .error (c.ahead .keyMustBeString, acc.reverse, c.offset)
        | none => .error (c.ahead .eofValue, acc.reverse, c.offset)
      else .error (c.ahead .expectedObjectCommaOrEnd, acc.reverse, c.offset)

/-- Reads one member whose opening quote is next, then the members after it. -/
def member (fuel depth : Nat) (acc : Members) (c : Cursor) : Reading Members (Members × Nat) :=
  match fuel with
  | 0 => .error (c.here .eofObject, acc.reverse, c.offset)
  | fuel + 1 =>
    match stringBody c.total [] c.advance with
    | .error e => .error (e, acc.reverse, c.offset)
    | .ok (key, c) =>
      let keyEnd := c.offset
      let c := c.skipBlanks
      match c.peek? with
      | none => .error (c.ahead .eofObject, acc.reverse, c.offset)
      | some ':' =>
        match value fuel depth c.advance with
        | .ok ((v, spot), c') => members fuel depth false ((key, v, keyEnd, spot) :: acc) c'
        | .error (e, p) =>
          .error (e, acc.reverse ++ (p.map fun (v, spot) => (key, v, keyEnd, spot)).toList,
            c.offset)
      | some _ => .error (c.ahead .expectedColon, acc.reverse, c.offset)
end

/-- The nesting bound: the 128th level of arrays and objects is refused. -/
def maxDepth : Nat := 128

/-- Reads a whole text as one JSON value, with the places of its parts. A refusal keeps what
had been read of the value, if anything: all of it when something follows it. -/
def parseSpotted (text : String) : Except (SyntaxError × Option (Json × Spot)) (Json × Spot) :=
  let chars := text.toList
  let start : Cursor := ⟨chars, 0, text.utf8ByteSize⟩
  -- every level of nesting consumes a character, so the length bounds the recursion
  match value (3 * chars.length + 3) maxDepth start with
  | .error e => .error e
  | .ok (v, c) =>
    let c := c.skipBlanks
    match c.peek? with
    | none => .ok v
    | some _ => .error (c.ahead .trailingCharacters, some v)

/-- Reads a whole text as one JSON value. -/
def parse (text : String) : Except SyntaxError Json :=
  ((parseSpotted text).map (·.1)).mapError (·.1)

/-- Reads a whole text, giving the refusal as its message. -/
def parseMessage (text : String) : Except String Json :=
  (parse text).mapError (·.message text)

end Json

end SchemaDesign
