import SchemaDesign.Toml.Value

/-!
# Reading TOML

A recursive-descent reader for TOML documents: key-value pairs with bare, quoted and dotted
keys; table headers `[a.b]` and array-of-tables headers `[[a]]`; basic, literal and multi-line
strings; decimal, hexadecimal, octal and binary integers; floats, including `inf` and `nan`;
booleans; dates and times; arrays and inline tables.

A failed read is either final, once the reader has committed to a reading (inside a string,
after a `=`), or leaves room for another reading of the same text: an array ends where its next
item cannot start, and only then is the missing `]` reported. A refusal names what was being
read and what was expected, at the place where reading stopped.

Tables are assembled as the document is read, under the rules of the format: a header may name a
table only once, unless the table so far exists only as a parent of other headers; a dotted key
may extend a table made by dotted keys, but not one made by a header; no key is defined twice.
-/

namespace SchemaDesign

namespace Toml

/-- The reader's place: the characters left and the bytes consumed. -/
structure Cursor where
  rest : List Char
  offset : Nat
  deriving Repr, Inhabited

/-- A failed read: the refusal, and whether it is final or leaves room for another reading. -/
structure Failure where
  fault : Fault
  final : Bool
  deriving Repr, Inhabited

/-- A read giving a value and the place after it. -/
abbrev Step (α : Type) := Except Failure (α × Cursor)

namespace Cursor

/-- The next character, if any. -/
def peek? (c : Cursor) : Option Char := c.rest.head?

/-- The cursor past one character. -/
def advance (c : Cursor) : Cursor :=
  match c.rest with
  | [] => c
  | x :: xs => ⟨xs, c.offset + x.utf8Size⟩

/-- The cursor past `n` characters. -/
def skip (c : Cursor) : Nat → Cursor
  | 0 => c
  | n + 1 => (c.advance).skip n

/-- Whether the text ahead starts with these characters. -/
def startsWith (c : Cursor) (s : String) : Bool := s.toList.isPrefixOf c.rest

/-- The cursor past blanks and tabs. -/
def skipBlanks (c : Cursor) : Cursor :=
  let n := (c.rest.takeWhile fun x => x = ' ' || x = '\t').length
  ⟨c.rest.drop n, c.offset + n⟩

/-- The span of the next character, empty at the end. -/
def span (c : Cursor) : Span :=
  ⟨c.offset, c.offset + (c.peek?.map Char.utf8Size).getD 0⟩

/-- A refusal at this place. -/
def fault (c : Cursor) (message : String) : Fault := ⟨message, some c.span⟩

/-- A final failure at this place. -/
def stop {α : Type} (c : Cursor) (message : String) : Except Failure α :=
  .error ⟨c.fault message, true⟩

/-- A failure at this place that leaves room for another reading. -/
def miss {α : Type} (c : Cursor) (message : String) : Except Failure α :=
  .error ⟨c.fault message, false⟩

/-- The text from this place up to another. -/
def upTo (c : Cursor) (other : Cursor) : String :=
  String.ofList (c.rest.take (c.rest.length - other.rest.length))

end Cursor

/-- A refusal's message: what was being read and what was expected. -/
def describe (what : Option String) (expected : List String) : String :=
  "\n".intercalate ((what.map ("invalid " ++ ·)).toList ++
    (if expected.isEmpty then [] else ["expected " ++ ", ".intercalate expected]))

/-- The cause given for a number that names no character, date or time. -/
def outOfRange : String := "value is out of range"

/-- A message with its cause on a line of its own. -/
def because (message cause : String) : String := message ++ "\n" ++ cause

/-- The message for a value that cannot start here. -/
def notAValue : String := describe (some "string") ["`\"`", "`'`"]

/-- Characters of a bare key. -/
def isBareKeyChar (c : Char) : Bool := c.isAlphanum || c = '-' || c = '_'

/-- Characters that stand for themselves in a basic string. -/
def isBasicChar (c : Char) : Bool :=
  c = ' ' || c = '\t' || c = '!' || (0x23 ≤ c.toNat && c.toNat ≤ 0x5B) ||
    (0x5D ≤ c.toNat && c.toNat ≤ 0x7E) || 0x80 ≤ c.toNat

/-- Characters of a literal string. -/
def isLiteralChar (c : Char) : Bool :=
  c = '\t' || (0x20 ≤ c.toNat && c.toNat ≤ 0x26) || (0x28 ≤ c.toNat && c.toNat ≤ 0x7E) ||
    0x80 ≤ c.toNat

/-- Characters allowed in a comment. -/
def isCommentChar (c : Char) : Bool :=
  c = '\t' || (0x20 ≤ c.toNat && c.toNat ≤ 0x7E) || 0x80 ≤ c.toNat

/-- Characters that are hexadecimal digits. -/
def isHexDigit (c : Char) : Bool :=
  c.isDigit || ('a' ≤ c && c ≤ 'f') || ('A' ≤ c && c ≤ 'F')

/-- The value of a digit in base 16 or below. -/
def digitValue (c : Char) : Nat :=
  if c.isDigit then c.toNat - 48
  else if 'a' ≤ c && c ≤ 'f' then c.toNat - 87
  else c.toNat - 55

/-- The number that digits denote in a base. -/
def digitsValue (base : Nat) (ds : List Char) : Nat :=
  ds.foldl (fun n d => n * base + digitValue d) 0

/-- Blanks, line breaks and comments, as characters left and bytes skipped; a comment ends at
a line break or at a character it may not hold. -/
def skipFiller (inComment : Bool) : List Char → Nat → List Char × Nat
  | [], n => ([], n)
  | x :: xs, n =>
    if x = '\n' then skipFiller false xs (n + 1)
    else if x = '\r' then
      match xs with
      | '\n' :: ys => skipFiller false ys (n + 2)
      | _ => (x :: xs, n)
    else if inComment then
      if isCommentChar x then skipFiller true xs (n + x.utf8Size) else (x :: xs, n)
    else if x = ' ' || x = '\t' then skipFiller false xs (n + 1)
    else if x = '#' then skipFiller true xs (n + 1)
    else (x :: xs, n)

/-- The cursor past blanks, line breaks and comments. -/
def Cursor.skipFiller (c : Cursor) : Cursor :=
  let (rest, n) := Toml.skipFiller false c.rest 0
  ⟨rest, c.offset + n⟩

/-- Digits with single underscores between them, after a first digit: the digits, the
characters consumed, and whether an underscore lacked a digit after it. -/
def digitRun (isDigit : Char → Bool) : List Char → List Char × Nat × Bool
  | [] => ([], 0, false)
  | x :: xs =>
    if isDigit x then
      let (ds, n, bad) := digitRun isDigit xs
      (x :: ds, n + 1, bad)
    else if x = '_' then
      match xs with
      | y :: _ =>
        if isDigit y then
          let (ds, n, bad) := digitRun isDigit xs
          (ds, n + 1, bad)
        else ([], 1, true)
      | [] => ([], 1, true)
    else ([], 0, false)

/-- Reads the end of a line: a line break or the end of the text. -/
def lineEnd (c : Cursor) : Option Cursor :=
  match c.rest with
  | [] => some c
  | '\n' :: _ => some c.advance
  | '\r' :: '\n' :: _ => some (c.skip 2)
  | _ => none

/-- Reads what may follow an item on its line: blanks, a comment, and the line's end. -/
def lineTrailing (c : Cursor) : Except Failure Cursor :=
  let c := c.skipBlanks
  let c := if c.peek? = some '#' then
      let body := c.advance.rest.takeWhile isCommentChar
      c.skip (body.length + 1)
    else c
  match lineEnd c with
  | some c => .ok c
  | none => c.stop (describe none ["newline", "`#`"])

section Strings

/-- The message for an unknown escape. -/
def badEscape : String :=
  describe (some "escape sequence")
    ["`b`", "`f`", "`n`", "`r`", "`t`", "`u`", "`U`", "`\\`", "`\"`"]

/-- Reads `n` hexadecimal digits naming a character. -/
def hexEscape (n : Nat) (c : Cursor) : Step Char :=
  let ds := (c.rest.take n).takeWhile isHexDigit
  let code := digitsValue 16 ds
  let what := "unicode " ++ toString n ++ "-digit hex code"
  if ds.length < n then c.stop (describe (some what) [])
  else if code < 0x110000 && (code < 0xD800 || 0xDFFF < code) then .ok (Char.ofNat code, c.skip n)
  else c.stop (because (describe (some what) []) outOfRange)

/-- Reads an escape whose backslash was consumed; `none` at the end of the text. -/
def escape (c : Cursor) : Option (Step Char) :=
  match c.peek? with
  | none => none
  | some x =>
    let c' := c.advance
    some <|
      if x = 'b' then .ok ('\x08', c')
      else if x = 'f' then .ok ('\x0c', c')
      else if x = 'n' then .ok ('\n', c')
      else if x = 'r' then .ok ('\r', c')
      else if x = 't' then .ok ('\t', c')
      else if x = '\\' then .ok ('\\', c')
      else if x = '"' then .ok ('"', c')
      else if x = 'u' then hexEscape 4 c'
      else if x = 'U' then hexEscape 8 c'
      else c'.stop badEscape

/-- Reads the rest of a basic string whose opening quote was consumed. -/
def basicBody (fuel : Nat) (acc : List Char) (c : Cursor) : Step String :=
  match fuel with
  | 0 => c.stop (describe (some "basic string") [])
  | fuel + 1 =>
    match c.peek? with
    | some '"' => .ok (String.ofList acc.reverse, c.advance)
    | some '\\' =>
      match escape c.advance with
      | some (.ok (ch, c')) => basicBody fuel (ch :: acc) c'
      | some (.error e) => .error e
      | none => c.stop (describe (some "basic string") [])
    | some x =>
      if isBasicChar x then basicBody fuel (x :: acc) c.advance
      else c.stop (describe (some "basic string") [])
    | none => c.stop (describe (some "basic string") [])

/-- Reads the rest of a literal string whose opening quote was consumed. -/
def literalBody (c : Cursor) : Step String :=
  let body := c.rest.takeWhile isLiteralChar
  let c' := c.skip body.length
  if c'.peek? = some '\'' then .ok (String.ofList body, c'.advance)
  else c'.stop (describe (some "literal string") [])

/-- Skips blanks and line breaks after a line-ending backslash. -/
def trimLine (c : Cursor) : Cursor :=
  let n := (c.rest.takeWhile fun x => x = ' ' || x = '\t' || x = '\n' || x = '\r').length
  c.skip n

/-- Whether a backslash here ends its line: only blanks follow it before the line break. -/
def endsLine (c : Cursor) : Bool :=
  match (c.rest.dropWhile fun x => x = ' ' || x = '\t') with
  | '\n' :: _ | '\r' :: '\n' :: _ => true
  | _ => false

/-- Reads the body of a multi-line string whose opening delimiter was consumed, up to its
closing delimiter; `quote` is the delimiter's character and `escapes` says whether backslashes
escape. Up to two quotes may stand before the closing delimiter. -/
def multiLineBody (quote : Char) (escapes : Bool) (what : String) (fuel : Nat)
    (acc : List Char) (c : Cursor) : Step String :=
  match fuel with
  | 0 => c.stop (describe (some what) [])
  | fuel + 1 =>
    let quotes := (c.rest.takeWhile (· = quote)).length
    if quotes ≥ 3 then
      let extra := min quotes 5 - 3
      .ok (String.ofList (acc.reverse ++ List.replicate extra quote), c.skip (extra + 3))
    else if quotes > 0 then
      multiLineBody quote escapes what fuel (List.replicate quotes quote ++ acc) (c.skip quotes)
    else
      match c.rest with
      | '\n' :: _ => multiLineBody quote escapes what fuel ('\n' :: acc) c.advance
      | '\r' :: '\n' :: _ => multiLineBody quote escapes what fuel ('\n' :: acc) (c.skip 2)
      | '\\' :: _ =>
        if !escapes then multiLineBody quote escapes what fuel ('\\' :: acc) c.advance
        else if endsLine c.advance then multiLineBody quote escapes what fuel acc (trimLine c.advance)
        else
          match escape c.advance with
          | some (.ok (ch, c')) => multiLineBody quote escapes what fuel (ch :: acc) c'
          | some (.error e) => .error e
          | none => c.stop (describe (some what) [])
      | x :: _ =>
        if (if escapes then isBasicChar x else isLiteralChar x) then
          multiLineBody quote escapes what fuel (x :: acc) c.advance
        else c.stop (describe (some what) [])
      | [] => c.stop (describe (some what) [])

/-- The cursor past a line break right after an opening delimiter, if there is one. -/
def skipNewline (c : Cursor) : Cursor :=
  match c.rest with
  | '\n' :: _ => c.advance
  | '\r' :: '\n' :: _ => c.skip 2
  | _ => c

/-- Reads a string whose opening quote is next. -/
def string (c : Cursor) : Step String :=
  let fuel := c.rest.length + 1
  if c.startsWith "\"\"\"" then
    multiLineBody '"' true "multiline basic string" fuel [] (skipNewline (c.skip 3))
  else if c.startsWith "'''" then
    multiLineBody '\'' false "multiline literal string" fuel [] (skipNewline (c.skip 3))
  else if c.peek? = some '"' then basicBody fuel [] c.advance
  else literalBody c.advance

end Strings

section Keys

/-- Reads one key: bare, or a basic or literal string; with its span. -/
def simpleKey (c : Cursor) : Step (String × Span) :=
  match c.peek? with
  | some '"' =>
    match basicBody (c.rest.length + 1) [] c.advance with
    | .ok (s, c') => .ok ((s, ⟨c.offset, c'.offset⟩), c')
    | .error e => .error e
  | some '\'' =>
    match literalBody c.advance with
    | .ok (s, c') => .ok ((s, ⟨c.offset, c'.offset⟩), c')
    | .error e => .error e
  | _ =>
    let name := c.rest.takeWhile isBareKeyChar
    if name.isEmpty then c.miss (describe (some "key") [])
    else
      let c' := c.skip name.length
      .ok ((String.ofList name, ⟨c.offset, c'.offset⟩), c')

/-- Reads the parts of a dotted key after the first, each after a dot; a dot with no key after
it is left unread. -/
def keyRest (fuel : Nat) (acc : List (String × Span)) (c : Cursor) :
    Step (List (String × Span)) :=
  match fuel with
  | 0 => .ok (acc.reverse, c)
  | fuel + 1 =>
    if c.peek? = some '.' then
      match simpleKey c.advance.skipBlanks with
      | .ok (k, c') => keyRest fuel (k :: acc) c'.skipBlanks
      | .error e => if e.final then .error e else .ok (acc.reverse, c)
    else .ok (acc.reverse, c)

/-- Reads a key, bare, quoted or dotted, with the blanks around its parts. -/
def key (c : Cursor) : Step (List (String × Span)) :=
  match simpleKey c.skipBlanks with
  | .ok (k, c') => keyRest c.rest.length [k] c'.skipBlanks
  | .error e => .error e

end Keys

section Numbers

/-- Reads a decimal integer with an optional sign; its text without underscores. -/
def decimalInteger (c : Cursor) : Step String :=
  let (sign, c1) := match c.peek? with
    | some '+' => ("+", c.advance)
    | some '-' => ("-", c.advance)
    | _ => ("", c)
  match c1.rest with
  | d :: rest =>
    if d = '0' then .ok (sign ++ "0", c1.advance)
    else if d.isDigit then
      let (ds, n, bad) := digitRun Char.isDigit rest
      let c2 := c1.skip (n + 1)
      if bad then c2.stop (describe (some "integer") ["digit"])
      else .ok (sign ++ String.ofList (d :: ds), c2)
    else c1.miss (describe (some "integer") [])
  | [] => c1.miss (describe (some "integer") [])

/-- Reads digits that may start with zero, after a point or an exponent mark. -/
def zeroPrefixable (c : Cursor) (message : String) : Step String :=
  match c.rest with
  | d :: rest =>
    if d.isDigit then
      let (ds, n, bad) := digitRun Char.isDigit rest
      let c2 := c.skip (n + 1)
      if bad then c2.stop message else .ok (String.ofList (d :: ds), c2)
    else c.stop message
  | [] => c.stop message

/-- Reads an exponent whose mark is next. -/
def exponent (c : Cursor) : Step String :=
  let c1 := c.advance
  let (sign, c2) := match c1.peek? with
    | some '+' => ("+", c1.advance)
    | some '-' => ("-", c1.advance)
    | _ => ("", c1)
  match zeroPrefixable c2 (describe (some "floating-point number") []) with
  | .ok (ds, c3) => .ok ("e" ++ sign ++ ds, c3)
  | .error e => .error e

/-- Reads a float written with a fraction or an exponent, or `inf` or `nan` with a sign. -/
def float (c : Cursor) : Step String :=
  match decimalInteger c with
  | .ok (whole, c1) =>
    match c1.peek? with
    | some 'e' | some 'E' =>
      match exponent c1 with
      | .ok (e, c2) => .ok (whole ++ e, c2)
      | .error e => .error e
    | some '.' =>
      match zeroPrefixable c1.advance (describe (some "floating-point number") ["digit"]) with
      | .ok (frac, c2) =>
        match c2.peek? with
        | some 'e' | some 'E' =>
          match exponent c2 with
          | .ok (e, c3) => .ok (whole ++ "." ++ frac ++ e, c3)
          | .error e => .error e
        | _ => .ok (whole ++ "." ++ frac, c2)
      | .error e => .error e
    | _ => special
  | .error e => if e.final then .error e else special
where
  /-- `inf` or `nan`, with an optional sign. -/
  special : Step String :=
    let (sign, c1) := match c.peek? with
      | some '+' => ("+", c.advance)
      | some '-' => ("-", c.advance)
      | _ => ("", c)
    if c1.startsWith "inf" then .ok (sign ++ "inf", c1.skip 3)
    else if c1.startsWith "nan" then .ok (sign ++ "nan", c1.skip 3)
    else c1.miss (describe (some "floating-point number") [])

/-- The largest integer a document may hold. -/
def integerLimit : Nat := Nat.pow 2 63

/-- An integer in range, or the refusal at the number's start. -/
def inRange (c : Cursor) (negative : Bool) (n : Nat) (after : Cursor) : Step Int :=
  if negative then
    if n > integerLimit then c.stop "number too small to fit in target type"
    else .ok (-(n : Int), after)
  else if n ≥ integerLimit then c.stop "number too large to fit in target type"
  else .ok ((n : Int), after)

/-- Reads an integer: decimal, or hexadecimal, octal or binary after its prefix. -/
def integer (c : Cursor) : Step Int :=
  let radix : Option (Nat × (Char → Bool) × String) :=
    if c.startsWith "0x" then some (16, isHexDigit, "hexadecimal integer")
    else if c.startsWith "0o" then some (8, fun x => '0' ≤ x && x ≤ '7', "octal integer")
    else if c.startsWith "0b" then some (2, fun x => x = '0' || x = '1', "binary integer")
    else none
  match radix with
  | some (base, isDigit, what) =>
    let c1 := c.skip 2
    match c1.rest with
    | d :: rest =>
      if isDigit d then
        let (ds, n, bad) := digitRun isDigit rest
        let c2 := c1.skip (n + 1)
        if bad then c2.stop (describe (some what) [])
        else inRange c false (digitsValue base (d :: ds)) c2
      else c1.stop (describe (some what) [])
    | [] => c1.stop (describe (some what) [])
  | none =>
    match decimalInteger c with
    | .ok (text, c1) =>
      let negative := text.startsWith "-"
      let ds := text.toList.filter Char.isDigit
      inRange c negative (digitsValue 10 ds) c1
    | .error e => .error e

end Numbers

section Dates

/-- Two digits for a field of a date or time. -/
inductive Field where
  /-- The field's value and the place after it. -/
  | value (n : Nat) (after : Cursor)
  /-- No two digits here. -/
  | missing
  /-- Two digits outside the field's range. -/
  | outside

/-- Reads exactly two digits in a range. -/
def twoDigits (c : Cursor) (low high : Nat) : Field :=
  match c.rest with
  | a :: b :: _ =>
    if a.isDigit && b.isDigit then
      let n := digitsValue 10 [a, b]
      if low ≤ n && n ≤ high then .value n (c.skip 2) else .outside
    else .missing
  | _ => .missing

/-- The message for a malformed date or time. -/
def badDate : String := describe (some "date-time") []

/-- The refusal of a field that must be there, at its start, with `what` being read: the cause
is given for digits out of range. -/
def badField {α : Type} (c : Cursor) (what : String) (outOfRangeToo : Bool) : Except Failure α :=
  let message := describe (some what) []
  c.stop (if outOfRangeToo then because message outOfRange else message)

/-- Reads minutes, seconds and a fraction after an hour and its colon. -/
def timeRest (c : Cursor) : Except Failure Cursor :=
  match twoDigits c 0 59 with
  | .missing => badField c "date-time" false
  | .outside => badField c "date-time" true
  | .value _ c1 =>
    if c1.peek? ≠ some ':' then c1.stop badDate
    else
      match twoDigits c1.advance 0 60 with
      | .missing => badField c1.advance "date-time" false
      | .outside => badField c1.advance "date-time" true
      | .value _ c2 =>
        if c2.peek? = some '.' then
          let ds := c2.advance.rest.takeWhile Char.isDigit
          if ds.isEmpty then c2.advance.stop badDate else .ok (c2.skip (ds.length + 1))
        else .ok c2

/-- Reads a time of day `HH:MM:SS`, with a fraction; `none` if no time starts here. -/
def time (c : Cursor) : Option (Except Failure Cursor) :=
  match twoDigits c 0 23 with
  | .value _ c1 => if c1.peek? = some ':' then some (timeRest c1.advance) else none
  | _ => none

/-- Reads a time offset: `Z` or a signed `HH:MM`. -/
def timeOffset (c : Cursor) : Except Failure Cursor :=
  match c.peek? with
  | some 'Z' | some 'z' => .ok c.advance
  | some '+' | some '-' =>
    match twoDigits c.advance 0 23 with
    | .value _ c1 =>
      if c1.peek? = some ':' then
        match twoDigits c1.advance 0 59 with
        | .value _ c2 => .ok c2
        | .missing => badField c1.advance "time offset" false
        | .outside => badField c1.advance "time offset" true
      else badField c1 "time offset" false
    | .missing => badField c.advance "time offset" false
    | .outside => badField c.advance "time offset" true
  | _ => .ok c

/-- Reads a date, a date with a time, or a time; `none` if none starts here. -/
def datetime (c : Cursor) : Option (Except Failure Cursor) :=
  let year := c.rest.take 4
  if year.length = 4 && year.all Char.isDigit && (c.rest.drop 4).head? = some '-' then
    let c1 := c.skip 5
    some <| match twoDigits c1 1 12 with
      | .missing => badField c1 "date-time" false
      | .outside => badField c1 "date-time" true
      | .value _ c2 =>
        if c2.peek? ≠ some '-' then c2.stop badDate
        else
          match twoDigits c2.advance 1 31 with
          | .missing => badField c2.advance "date-time" false
          | .outside => badField c2.advance "date-time" true
          | .value _ c3 =>
            match c3.peek? with
            | some 'T' | some 't' | some ' ' =>
              match time c3.advance with
              | some (.ok c4) => timeOffset c4
              | some (.error e) => .error e
              | none => .ok c3
            | _ => .ok c3
  else time c

end Dates

section Tables

/-- The refusal of a key defined twice, naming the table it is in. -/
def duplicateKey (key : String) (table : Option (List String)) : String :=
  match table with
  | none => "duplicate key `" ++ key ++ "`"
  | some [] => "duplicate key `" ++ key ++ "` in document root"
  | some path => "duplicate key `" ++ key ++ "` in table `" ++ ".".intercalate path ++ "`"

/-- The refusal of a dotted key or header that runs through a value that is not a table. -/
def extendsValue (path : List String) (v : Value) : String :=
  "dotted key `" ++ ".".intercalate path ++ "` attempted to extend non-table type (" ++
    v.typeName ++ ")"

/-- Replaces the value under a key. -/
def replaceEntry (key : String) (v : Value) (entries : List Entry) : List Entry :=
  entries.map fun (k, s, old) => if k = key then (k, s, v) else (k, s, old)

/-- Applies `f` to the last of some tables, if there is one. -/
def updateLast (f : Value → Except String Value) (tables : List Value) :
    Except String (List Value) :=
  match tables.getLast? with
  | some last => do
    let last ← f last
    pure (tables.dropLast ++ [last])
  | none => pure tables

/-- Applies `f` to the table at a path of keys: a table, or the last table of an array of
tables. -/
def updateTable (f : Value → Except String Value) :
    List String → List Entry → Except String (List Entry)
  | [], entries => pure entries
  | k :: rest, entries =>
    match entries.find? (·.1 = k) with
    | none => pure entries
    | some (_, _, v) => do
      let inner : Value → Except String Value := fun t =>
        match rest, t with
        | [], t => f t
        | _, .table o es s => do
          let es ← updateTable f rest es
          pure (.table o es s)
        | _, t => pure t
      let v ← match v with
        | .tableArray ts => (updateLast inner ts).map Value.tableArray
        | t => inner t
      pure (replaceEntry k v entries)

/-- Applies `f` to the entries of the table at a path of keys; the empty path is the root. -/
def updateEntries (f : List Entry → Except String (List Entry)) (path : List String)
    (root : List Entry) : Except String (List Entry) :=
  match path with
  | [] => f root
  | _ => updateTable (fun t => match t with
      | .table o es s => do
        let es ← f es
        pure (.table o es s)
      | t => pure t) path root

/-- Walks a path of keys from a table, creating the tables it lacks, and applies `f` to the
entries of the table it ends at, told whether that table was made by dotted keys. A walk for a
dotted key creates dotted tables and may not enter a table made by a header; a walk for a header
creates implicit tables. Either may pass through the last table of an array of tables. -/
def descend (dotted : Bool) (walked : List String)
    (f : Bool → List Entry → Except String (List Entry)) :
    List (String × Span) → List Entry → Except String (List Entry)
  | [], entries => f false entries
  | (k, ks) :: rest, entries =>
    let walked := walked ++ [k]
    let origin := if dotted then Origin.dotted else Origin.implicit
    let enter : Value → Except String Value := fun t =>
      match t with
      | .table o es s =>
        if dotted && o = .header then throw (duplicateKey k none)
        else do
          let es ← match rest with
            | [] => f (o = .dotted) es
            | _ => descend dotted walked f rest es
          pure (.table o es s)
      | v => throw (extendsValue walked v)
    match entries.find? (·.1 = k) with
    | none => do
      let v ← enter (.table origin [] none)
      pure (entries ++ [(k, ks, v)])
    | some (_, _, .tableArray ts) => do
      let ts ← updateLast (fun t => match t with
        | .table o es s => do
          let es ← match rest with
            | [] => f (o = .dotted) es
            | _ => descend dotted walked f rest es
          pure (.table o es s)
        | t => pure t) ts
      pure (replaceEntry k (.tableArray ts) entries)
    | some (_, _, v) => do
      let v ← enter v
      pure (replaceEntry k v entries)

/-- Adds a key-value pair to the current table, at the end of its dotted path. -/
def addPair (current : List String) (path : List (String × Span)) (leaf : String × Span)
    (v : Value) (root : List Entry) : Except String (List Entry) :=
  updateEntries (fun entries =>
    descend true [] (fun isDotted es =>
      if isDotted == path.isEmpty then throw (duplicateKey leaf.1 none)
      else if es.any (·.1 = leaf.1) then throw (duplicateKey leaf.1 (some current))
      else pure (es ++ [(leaf.1, leaf.2, v)])) path entries) current root

/-- Opens the table a header `[path]` names. A table that exists only as a parent of other
headers is taken over and moves to the end of its parent; any other existing value is a
duplicate. -/
def openTable (path : List (String × Span)) (leaf : String × Span) (span : Span)
    (root : List Entry) : Except String (List Entry) :=
  descend false [] (fun _ es =>
    match es.find? (·.1 = leaf.1) with
    | none => pure (es ++ [(leaf.1, leaf.2, .table .header [] (some span))])
    | some (k, ks, .table .implicit inner _) =>
      pure (es.filter (·.1 ≠ k) ++ [(k, ks, .table .header inner (some span))])
    | some _ => throw (duplicateKey leaf.1 (some (path.map (·.1))))) path root

/-- Opens a new table of the array a header `[[path]]` names. -/
def openArrayTable (path : List (String × Span)) (leaf : String × Span) (span : Span)
    (root : List Entry) : Except String (List Entry) :=
  descend false [] (fun _ es =>
    let fresh := Value.table .header [] (some span)
    match es.find? (·.1 = leaf.1) with
    | none => pure (es ++ [(leaf.1, leaf.2, .tableArray [fresh])])
    | some (k, _, .tableArray ts) => pure (replaceEntry k (.tableArray (ts ++ [fresh])) es)
    | some _ => throw (duplicateKey leaf.1 (some (path.map (·.1))))) path root

/-- Widens the span of the table at a path to end at `stop`. -/
def widenTable (path : List String) (stop : Nat) (root : List Entry) : List Entry :=
  match path with
  | [] => root
  | _ =>
    match updateTable (fun t => match t with
        | .table o es (some s) => pure (.table o es (some ⟨s.start, stop⟩))
        | t => pure t) path root with
    | .ok r => r
    | .error _ => root

/-- Builds an inline table from its pairs, in order: dotted keys make implicit tables inside it,
and no key may be defined twice. -/
def inlineEntries : List (List (String × Span) × (String × Span) × Value) → List Entry →
    Except String (List Entry)
  | [], acc => pure acc
  | (path, leaf, v) :: more, acc => do
    let acc ← descend true [] (fun _ es =>
      if es.any (·.1 = leaf.1) then throw (duplicateKey leaf.1 none)
      else pure (es ++ [(leaf.1, leaf.2, v)])) path acc
    inlineEntries more acc

end Tables

section Values

mutual
/-- Reads one value. -/
def value (fuel : Nat) (c : Cursor) : Step Value :=
  match fuel with
  | 0 => c.stop "recursion limit exceeded"
  | fuel + 1 =>
    match c.peek? with
    | none => c.miss ""
    | some x =>
      if x = '"' || x = '\'' then
        match string c with
        | .ok (s, c') => .ok (.string s ⟨c.offset, c'.offset⟩, c')
        | .error e => .error e
      else if x = '[' then
        match arrayItems fuel [] c.advance with
        | .ok (items, c1) =>
          let c2 := c1.skipFiller
          if c2.peek? = some ']' then .ok (.array items ⟨c.offset, c2.offset + 1⟩, c2.advance)
          else c2.stop (describe (some "array") ["`]`"])
        | .error e => .error e
      else if x = '\x7b' then
        let c1 := c.advance
        match inlinePairs fuel [] c1 with
        | .ok (pairs, c2) =>
          let c3 := c2.skipBlanks
          if c3.peek? = some '\x7d' then
            match inlineEntries pairs [] with
            | .ok entries => .ok (.inlineTable entries ⟨c.offset, c3.offset + 1⟩, c3.advance)
            | .error m => c1.stop m
          else c3.stop (describe (some "inline table") ["`\x7d`"])
        | .error e => .error e
      else if x = '+' || x = '-' || x.isDigit then number c
      else if x = '_' then c.miss (describe (some "integer") ["leading digit"])
      else if x = '.' then c.miss (describe (some "floating-point number") ["leading digit"])
      else if c.startsWith "true" then .ok (.boolean true ⟨c.offset, c.offset + 4⟩, c.skip 4)
      else if c.startsWith "false" then .ok (.boolean false ⟨c.offset, c.offset + 5⟩, c.skip 5)
      else if c.startsWith "inf" || c.startsWith "nan" then
        .ok (.float (c.upTo (c.skip 3)) ⟨c.offset, c.offset + 3⟩, c.skip 3)
      else c.miss notAValue

/-- Reads array items after the opening bracket or a comma, up to where no item starts. -/
def arrayItems (fuel : Nat) (acc : List Value) (c : Cursor) : Step (List Value) :=
  match fuel with
  | 0 => c.stop "recursion limit exceeded"
  | fuel + 1 =>
    match value fuel c.skipFiller with
    | .ok (v, c1) =>
      let c2 := c1.skipFiller
      if c2.peek? = some ',' then arrayItems fuel (v :: acc) c2.advance
      else .ok ((v :: acc).reverse, c2)
    | .error e => if e.final then .error e else .ok (acc.reverse, c)

/-- Reads the key-value pairs of an inline table after its brace or a comma. -/
def inlinePairs (fuel : Nat) (acc : List (List (String × Span) × (String × Span) × Value))
    (c : Cursor) : Step (List (List (String × Span) × (String × Span) × Value)) :=
  match fuel with
  | 0 => c.stop "recursion limit exceeded"
  | fuel + 1 =>
    match key c with
    | .error e => if e.final then .error e else .ok (acc.reverse, c)
    | .ok (keys, c1) =>
      if c1.peek? ≠ some '=' then c1.stop (describe none ["`.`", "`=`"])
      else
        match value fuel c1.advance.skipBlanks with
        | .error e => .error { e with final := true }
        | .ok (v, c2) =>
          let c3 := c2.skipBlanks
          let pair := (keys.dropLast, keys.getLast?.getD ("", ⟨0, 0⟩), v)
          if c3.peek? = some ',' then
            match inlinePairs fuel (pair :: acc) c3.advance with
            | .ok (pairs, c4) =>
              -- a comma with no pair after it is left for the closing brace to refuse
              if pairs.length = acc.length + 1 then .ok (pairs, c3) else .ok (pairs, c4)
            | .error e => .error e
          else .ok ((pair :: acc).reverse, c3)

/-- Reads a date or time, a float or an integer. -/
def number (c : Cursor) : Step Value :=
  match datetime c with
  | some (.ok c') => .ok (.datetime (c.upTo c') ⟨c.offset, c'.offset⟩, c')
  | some (.error e) => .error e
  | none =>
    match float c with
    | .ok (text, c') => .ok (.float text ⟨c.offset, c'.offset⟩, c')
    | .error e =>
      if e.final then .error e
      else
        match integer c with
        | .ok (i, c') => .ok (.integer i ⟨c.offset, c'.offset⟩, c')
        | .error e => .error e
end

end Values

section Document

/-- The state of reading a document: the root table so far and the path of the table that
key-value pairs go to. -/
structure Reading where
  root : List Entry
  current : List String
  deriving Repr, Inhabited

/-- A message of a refusal met reading a header that names nothing being read. -/
def underHeader (message : String) : String := "invalid table header\n" ++ message

/-- Reads a header, `[a.b]` or `[[a.b]]`, whose first bracket is next. Refusals of the header
itself, of what follows it on its line and of the table it names are refusals of a table
header; those of its key keep their own. -/
def header (r : Reading) (c : Cursor) : Except Fault (Reading × Cursor) :=
  let array := c.startsWith "[["
  let opening := if array then 2 else 1
  let closing := if array then "]]" else "]"
  let result : Except Failure (Reading × Cursor) := do
    let (keys, c1) ← key (c.skip opening)
    if !c1.startsWith closing then
      c1.stop (describe (some "table header") ["`.`", "`" ++ closing ++ "`"])
    else
      let c2 := c1.skip opening
      let span : Span := ⟨c.offset, c2.offset⟩
      let c3 ← (lineTrailing c2).mapError fun f =>
        { f with fault.message := underHeader f.fault.message }
      let parents := keys.dropLast
      let leaf := keys.getLast?.getD ("", ⟨0, 0⟩)
      let opened := if array then openArrayTable parents leaf span r.root
        else openTable parents leaf span r.root
      match opened with
      | .ok root => pure ({ root, current := keys.map (·.1) }, c3)
      | .error m => c.stop (underHeader m)
  result.mapError (·.fault)

/-- Reads a key-value pair of the current table. -/
def pair (r : Reading) (c : Cursor) : Except Fault (Reading × Cursor) :=
  let result : Except Failure (Reading × Cursor) := do
    let (keys, c1) ← key c
    if c1.peek? ≠ some '=' then c1.stop (describe none ["`.`", "`=`"])
    else
      let (v, c2) ← (value (c.rest.length + 1) c1.advance.skipBlanks).mapError
        ({ · with final := true })
      let c3 ← lineTrailing c2
      let leaf := keys.getLast?.getD ("", ⟨0, 0⟩)
      match addPair r.current keys.dropLast leaf v r.root with
      | .ok root =>
        let stop := (v.span?.map (·.stop)).getD c2.offset
        pure ({ r with root := widenTable r.current stop root }, c3)
      | .error m => c.stop m
  result.mapError (·.fault)

/-- Reads the items of a document, one a line. -/
def items (fuel : Nat) (r : Reading) (c : Cursor) : Except Fault Reading :=
  match fuel with
  | 0 => .ok r
  | fuel + 1 =>
    let c := c.skipBlanks
    match c.peek? with
    | none => .ok r
    | some '#' =>
      let body := c.advance.rest.takeWhile isCommentChar
      let c1 := c.skip (body.length + 1)
      match lineEnd c1 with
      | some c2 => items fuel r c2
      | none => .error (c1.fault "")
    | some '\n' => items fuel r c.advance
    | some '\r' =>
      match lineEnd c with
      | some c1 => items fuel r c1
      | none => .error (c.advance.fault "")
    | some '[' =>
      match header r c with
      | .ok (r, c1) => items fuel r c1
      | .error f => .error f
    | some _ =>
      match pair r c with
      | .ok (r, c1) => items fuel r c1
      | .error f => .error f

/-- Reads a document into the entries of its root table. -/
def parseDocument (text : String) : Except Fault (List Entry) :=
  let chars := text.toList
  let start : Cursor := ⟨chars, 0⟩
  let start := if start.peek? = some (Char.ofNat 0xFEFF) then start.advance else start
  (items (chars.length + 1) ⟨[], []⟩ start).map (·.root)

end Document

end Toml

end SchemaDesign
