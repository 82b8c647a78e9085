/-!
# Binary64 numbers

The double-precision numbers of IEEE 754, held exactly: a finite number is `±m·2^e` with a
mantissa `m` below `2^53` and an exponent `e` of at least `-1074`; it is normal when `m ≥ 2^52`
and subnormal, at the least exponent, otherwise. Beyond them lie the two infinities and
not-a-number.

An operation is exact arithmetic on rationals followed by one rounding to the nearest number, a
tie going to the even mantissa, as the hardware rounds one operation; a result beyond the
largest finite number is an infinity.

A finite number is written with its shortest digits: the fewest significant decimal digits whose
value rounds back to it. The values that round to `x` form an interval bounded by the midpoints
to its neighbours, the bounds included when the mantissa is even. The digits are found by
cutting `x` at ever lower powers of ten, until the cut, or the cut raised by one unit of the
last place, lies inside the interval; when both do, the nearer to `x` is taken, the upper one on
a tie.
-/

namespace SchemaDesign

/-- A binary64 number. -/
inductive Binary64 where
  /-- `(-1)^negative · mantissa · 2^exponent`. -/
  | finite (negative : Bool) (mantissa : Nat) (exponent : Int)
  /-- An infinity. -/
  | infinite (negative : Bool)
  /-- Not a number. -/
  | nan
  deriving DecidableEq, Repr, Inhabited

namespace Binary64

/-- The least exponent, that of the subnormal numbers. -/
def minExponent : Int := -1074

/-- The greatest exponent of a finite number. -/
def maxExponent : Int := 971

/-- A signed zero. -/
def zero (negative : Bool) : Binary64 := .finite negative 0 minExponent

/-- `a / (b·2^e)` as a numerator and a denominator. -/
def scaledFraction (a b : Nat) (e : Int) : Nat × Nat :=
  if 0 ≤ e then (a, b * Nat.pow 2 e.toNat) else (a * Nat.pow 2 (-e).toNat, b)

/-- The exponent `e` with `2^52 ≤ a / (b·2^e) < 2^53`, for positive `a` and `b`: the quotient
`a / b` lies between `2^(log a - log b - 1)` and `2^(log a - log b + 1)`, so one of two
exponents fits. -/
def normalExponent (a b : Nat) : Int :=
  let e : Int := (Nat.log2 a : Int) - (Nat.log2 b : Int) - 52
  let (n, d) := scaledFraction a b e
  if n / d < Nat.pow 2 52 then e - 1 else e

/-- The number nearest to `±a / b`; a zero denominator gives an infinity, or not-a-number over
a zero numerator. -/
def ofRatio (negative : Bool) (a b : Nat) : Binary64 :=
  if b = 0 then (if a = 0 then .nan else .infinite negative)
  else if a = 0 then zero negative
  else
    let e := max (normalExponent a b) minExponent
    let (n, d) := scaledFraction a b e
    let q := n / d
    let r := n % d
    let q := if 2 * r > d || (2 * r = d && q % 2 = 1) then q + 1 else q
    let (q, e) := if q = Nat.pow 2 53 then (Nat.pow 2 52, e + 1) else (q, e)
    if maxExponent < e then .infinite negative else .finite negative q e

/-- The number nearest to `±(a / b)·2^shift`. -/
def ofScaledRatio (negative : Bool) (a b : Nat) (shift : Int) : Binary64 :=
  if 0 ≤ shift then ofRatio negative (a * Nat.pow 2 shift.toNat) b
  else ofRatio negative a (b * Nat.pow 2 (-shift).toNat)

/-- The number nearest to a natural number. -/
def ofNat (n : Nat) : Binary64 := ofRatio false n 1

/-- The number of decimal digits of a positive number. -/
def decimalLength (n : Nat) : Nat := (Nat.toDigits 10 n).length

/-- The number nearest to `±digits·10^exponent`. A value of ten to the 310 or more is beyond
every finite number and one below ten to the -330 is below half the least one, so both are
decided without computing the power. -/
def ofDecimal (negative : Bool) (digits : Nat) (exponent : Int) : Binary64 :=
  if digits = 0 then zero negative
  else
    let magnitude : Int := (decimalLength digits : Int) + exponent
    if 310 < magnitude then .infinite negative
    else if magnitude < -330 then zero negative
    else if 0 ≤ exponent then ofRatio negative (digits * Nat.pow 10 exponent.toNat) 1
    else ofRatio negative digits (Nat.pow 10 (-exponent).toNat)

/-- The power of ten nearest to `10^k`. -/
def powerOfTen (k : Nat) : Binary64 := ofDecimal false 1 k

/-- The number with the other sign. -/
def neg : Binary64 → Binary64
  | .finite s m e => .finite (!s) m e
  | .infinite s => .infinite (!s)
  | .nan => .nan

/-- Whether the number is a zero. -/
def isZero : Binary64 → Bool
  | .finite _ m _ => m = 0
  | _ => false

/-- Whether the number is an infinity. -/
def isInfinite : Binary64 → Bool
  | .infinite _ => true
  | _ => false

/-- The rounded product. -/
def mul : Binary64 → Binary64 → Binary64
  | .finite s m e, .finite t n f => ofScaledRatio (s != t) (m * n) 1 (e + f)
  | .finite s m _, .infinite t | .infinite t, .finite s m _ =>
    if m = 0 then .nan else .infinite (s != t)
  | .infinite s, .infinite t => .infinite (s != t)
  | _, _ => .nan

/-- The rounded quotient. -/
def div : Binary64 → Binary64 → Binary64
  | .finite s m e, .finite t n f =>
    if n = 0 then (if m = 0 then .nan else .infinite (s != t))
    else ofScaledRatio (s != t) m n (e - f)
  | .finite s _ _, .infinite t => zero (s != t)
  | .infinite s, .finite t _ _ => .infinite (s != t)
  | _, _ => .nan

/-- The interval of the values that round to the positive number `m·2^e`, in units of a power
of two: the number, how far down and how far up the interval reaches, that power, and whether
the bounds belong to it. The neighbours of a power of two are nearer below than above. -/
def roundingInterval (m : Nat) (e : Int) : Nat × Nat × Nat × Int × Bool :=
  if m = Nat.pow 2 52 then (4 * m, 1, 2, e - 2, true)
  else (2 * m, 1, 1, e - 1, m < Nat.pow 2 52 || m % 2 = 0)

/-- A decimal `d·10^k` without the zeros at the end of `d`; `fuel` bounds the zeros removed. -/
def dropTrailingZeros : Nat → Nat → Int → Nat × Int
  | 0, d, k => (d, k)
  | fuel + 1, d, k => if d ≠ 0 && d % 10 = 0 then dropTrailingZeros fuel (d / 10) (k + 1) else (d, k)

/-- The shortest digits of the positive finite number `m·2^e`: `(d, k)` with `d·10^k` the
nearest of the shortest decimals that round to it, `d` without zeros at its end. The cuts start
at a power of ten above the interval and go down one place at a time; a binary64 number has at
most seventeen significant digits, so forty places are more than enough. -/
def shortest (m : Nat) (e : Int) : Nat × Int :=
  let (v, minus, plus, exp, inclusive) := roundingInterval m e
  -- the exact values, over the denominator `den`
  let up : Nat := if 0 ≤ exp then Nat.pow 2 exp.toNat else 1
  let den : Nat := if 0 ≤ exp then 1 else Nat.pow 2 (-exp).toNat
  let value := v * up
  let low := (v - minus) * up
  let high := (v + plus) * up
  let bits : Int := (Nat.log2 high : Int) + 1 - (Nat.log2 den : Int)
  let top : Int := bits * 30103 / 100000 + 2
  let (d, k) := cut value low high den inclusive 40 top
  dropTrailingZeros (decimalLength d) d k
where
  /-- The digits of `value / den` cut at `10^k`, or at a lower place if there neither the cut
  nor the cut plus one unit lies in the interval from `low / den` to `high / den`. -/
  cut (value low high den : Nat) (inclusive : Bool) : Nat → Int → Nat × Int
    | 0, k => (value / den, k)
    | fuel + 1, k =>
      let (a, b) : Nat × Nat := if 0 ≤ k then (1, Nat.pow 10 k.toNat) else (Nat.pow 10 (-k).toNat, 1)
      -- value / 10^k = value·a / (den·b)
      let unit := den * b
      let t := value * a / unit
      let r := value * a % unit
      let down := if inclusive then low * a ≤ t * unit else low * a < t * unit
      let up := if inclusive then (t + 1) * unit ≤ high * a else (t + 1) * unit < high * a
      if down && up then (if unit ≤ 2 * r then (t + 1, k) else (t, k))
      else if down then (t, k)
      else if up then (t + 1, k)
      else cut value low high den inclusive fuel (k - 1)

/-- A text of `n` zeros. -/
def zeros (n : Nat) : String := String.ofList (List.replicate n '0')

/-- The decimal `digits·10^k` written with a point and without an exponent; an integral value
ends in `.0`. -/
def positional (digits : String) (k : Int) : String :=
  if 0 ≤ k then digits ++ zeros k.toNat ++ ".0"
  else
    let n := digits.length
    let f := (-k).toNat
    if f < n then (digits.take (n - f)).toString ++ "." ++ (digits.drop (n - f)).toString
    else "0." ++ zeros (f - n) ++ digits

/-- The sign of a negative number. -/
def signText (negative : Bool) : String := if negative then "-" else ""

/-- The number written out with a point and no exponent, however large or small: an integral
value ends in `.0`; the infinities are `inf` and `-inf`, and not-a-number is `NaN`. -/
def pointText : Binary64 → String
  | .finite s m e =>
    if m = 0 then signText s ++ "0.0"
    else
      let (d, k) := shortest m e
      signText s ++ positional (toString d) k
  | .infinite s => signText s ++ "inf"
  | .nan => "NaN"

/-- The number written compactly: with a point and no exponent when its first digit stands
between the fifth place after the point and the sixteenth before it, an integral value then
ending in `.0`; otherwise as its first digit, the other digits after a point, and a signed
exponent of ten. -/
def compactText : Binary64 → String
  | .finite s m e =>
    if m = 0 then signText s ++ "0.0"
    else
      let (d, k) := shortest m e
      let digits := toString d
      let place : Int := (digits.length : Int) - 1 + k
      if -5 ≤ place && place < 16 then signText s ++ positional digits k
      else
        signText s ++ (digits.take 1).toString ++
          (if digits.length > 1 then "." ++ (digits.drop 1).toString else "") ++
          "e" ++ (if 0 ≤ place then "+" else "-") ++ toString place.natAbs
  | .infinite s => signText s ++ "inf"
  | .nan => "NaN"

end Binary64

end SchemaDesign
