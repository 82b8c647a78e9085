import SchemaDesign.Binary64

/-!
# Number literals as binary64 numbers

A number literal with a fraction or an exponent, a negative zero, or an integral literal beyond
the 64-bit integers is read as a binary64 number, the way the snapshot reader reads it; that is
not always the number nearest to the literal.

The digits are gathered into a significand that stays within 64 bits: once an integral digit
would not fit, it and every further integral digit raise the power of ten instead, and once a
digit of the fraction would not fit, it and the rest of the fraction are dropped. The exponent
is gathered in 32 bits. The significand is then rounded to a binary64 number and multiplied or
divided by the power of ten nearest to `10^|exponent|`, each operation rounded on its own. A
power beyond `10^308` divides in steps of `10^308` until the exponent is in reach or the number
has become zero, and multiplies not at all: a number too large to hold, like one whose exponent
does not fit in 32 bits, is out of range, unless its significand is zero or its exponent is
negative, in which case the number is a zero.
-/

namespace SchemaDesign

namespace Json

/-- The largest 64-bit unsigned integer. -/
def u64Max : Nat := Nat.pow 2 64 - 1

/-- The largest 32-bit signed integer. -/
def i32Max : Int := Int.pow 2 31 - 1

/-- The least 32-bit signed integer. -/
def i32Min : Int := -Int.pow 2 31

/-- A 32-bit signed sum, held at the bounds when it leaves them. -/
def saturate (i : Int) : Int := max i32Min (min i32Max i)

/-- The value of a digit. -/
def digitOf (c : Char) : Nat := c.toNat - 48

/-- `significand·10^exponent` as a binary64 number: the significand rounded, then scaled by one
rounded multiplication or division by a power of ten, or by divisions by `10^308` first when
the exponent is below -308. A product that is infinite is out of range, and so is a power
beyond `10^308` over a number that is not zero. Each step raises a negative exponent by 308, so
`fuel` steps of it bound the loop. -/
def scale : Nat → Binary64 → Int → Option Binary64
  | 0, f, _ => some f
  | fuel + 1, f, exponent =>
    if exponent.natAbs ≤ 308 then
      if 0 ≤ exponent then
        let g := f.mul (Binary64.powerOfTen exponent.toNat)
        if g.isInfinite then none else some g
      else some (f.div (Binary64.powerOfTen exponent.natAbs))
    else if f.isZero then some f
    else if 0 ≤ exponent then none
    else scale fuel (f.div (Binary64.powerOfTen 308)) (exponent + 308)

/-- The number `±significand·10^exponent`, or `none` when out of range. -/
def fromParts (positive : Bool) (significand : Nat) (exponent : Int) : Option Binary64 :=
  (scale (exponent.natAbs / 308 + 2) (Binary64.ofNat significand) exponent).map fun f =>
    if positive then f else f.neg

/-- The outcome of reading a literal: the number, or how many characters had been consumed
when it was found out of range. -/
abbrev FloatReading := Except Nat Binary64

/-- The number once the literal is read, `consumed` characters of it. -/
def complete (positive : Bool) (significand : Nat) (exponent : Int) (consumed : Nat) : FloatReading :=
  match fromParts positive significand exponent with
  | some f => .ok f
  | none => .error consumed

/-- Reads the exponent digits after the `e`, its sign and its first digit, the value gathered so
far being `exp`, to be added to `start` or taken from it. A digit that does not fit in 32 bits
ends the reading: out of range for a number that is not zero with a positive exponent, a zero
otherwise. -/
def exponentDigits (positive : Bool) (significand : Nat) (start : Int) (positiveExp : Bool) :
    Nat → List Char → Nat → FloatReading
  | exp, c :: rest, consumed =>
    if c.isDigit then
      let n : Int := (exp : Int) * 10 + digitOf c
      if i32Max < n then
        if significand ≠ 0 && positiveExp then .error (consumed + 1)
        else .ok (Binary64.zero (!positive))
      else exponentDigits positive significand start positiveExp n.toNat rest (consumed + 1)
    else complete positive significand (total exp) consumed
  | exp, [], consumed => complete positive significand (total exp) consumed
where
  /-- The power of ten with the exponent applied, held within 32 bits. -/
  total (exp : Nat) : Int := if positiveExp then saturate (start + exp) else saturate (start - exp)

/-- Reads an exponent whose `e` or `E` was consumed, with the power of ten gathered so far. -/
def exponentPart (positive : Bool) (significand : Nat) (start : Int) :
    List Char → Nat → FloatReading
  | '+' :: c :: rest, consumed =>
    exponentDigits positive significand start true (digitOf c) rest (consumed + 2)
  | '-' :: c :: rest, consumed =>
    exponentDigits positive significand start false (digitOf c) rest (consumed + 2)
  | c :: rest, consumed => exponentDigits positive significand start true (digitOf c) rest (consumed + 1)
  | [], consumed => .error consumed

/-- Reads the end of a literal after its digits: an exponent, or nothing more. -/
def afterDigits (positive : Bool) (significand : Nat) (exponent : Int) :
    List Char → Nat → FloatReading
  | 'e' :: rest, consumed | 'E' :: rest, consumed =>
    exponentPart positive significand exponent rest (consumed + 1)
  | _, consumed => complete positive significand exponent consumed

/-- Reads the digits of a fraction: each is appended to the significand while it fits, each
lowering the power of ten; the first that does not fit drops the rest of the fraction. -/
def fractionDigits (positive : Bool) : Nat → Int → List Char → Nat → FloatReading
  | significand, exponent, c :: rest, consumed =>
    if c.isDigit then
      let n := significand * 10 + digitOf c
      if u64Max < n then
        let skipped := (c :: rest).takeWhile Char.isDigit
        afterDigits positive significand exponent ((c :: rest).drop skipped.length)
          (consumed + skipped.length)
      else fractionDigits positive n (exponent - 1) rest (consumed + 1)
    else afterDigits positive significand exponent (c :: rest) consumed
  | significand, exponent, [], consumed => afterDigits positive significand exponent [] consumed

/-- Reads what follows the integral digits: a fraction, an exponent or nothing. -/
def afterIntegral (positive : Bool) (significand : Nat) (exponent : Int) :
    List Char → Nat → FloatReading
  | '.' :: rest, consumed => fractionDigits positive significand exponent rest (consumed + 1)
  | rest, consumed => afterDigits positive significand exponent rest consumed

/-- Reads the integral digits after the first: each is appended to the significand while it
fits; from the first that does not, each raises the power of ten instead. A literal whose
digits all fit and that has neither fraction nor exponent is its significand rounded once. -/
def integralDigits (positive : Bool) (overflowed : Bool) : Nat → Int → List Char → Nat → FloatReading
  | significand, exponent, c :: rest, consumed =>
    if c.isDigit then
      let n := significand * 10 + digitOf c
      if overflowed || u64Max < n then
        integralDigits positive true significand (exponent + 1) rest (consumed + 1)
      else integralDigits positive false n exponent rest (consumed + 1)
    else if c = '.' || c = 'e' || c = 'E' || overflowed then
      afterIntegral positive significand exponent (c :: rest) consumed
    else plain significand
  | significand, exponent, [], consumed =>
    if overflowed then afterIntegral positive significand exponent [] consumed
    else plain significand
where
  /-- The significand rounded, with its sign. -/
  plain (significand : Nat) : FloatReading :=
    let f := Binary64.ofNat significand
    .ok (if positive then f else f.neg)

/-- Reads a number literal as a binary64 number, or says how many of its characters had been
read when it was found out of range. The literal is one the reader accepted. -/
def readFloat (text : String) : FloatReading :=
  let (positive, chars, consumed) := match text.toList with
    | '-' :: rest => (false, rest, 1)
    | chars => (true, chars, 0)
  match chars with
  | '0' :: rest => afterIntegral positive 0 0 rest (consumed + 1)
  | c :: rest => integralDigits positive false (digitOf c) 0 rest (consumed + 1)
  | [] => .error consumed

end Json

end SchemaDesign
