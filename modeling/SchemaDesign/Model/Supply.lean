import SchemaDesign.Model.Basic

/-!
# Fresh ids

Generated entities need ids that no other entity has. A supply hands out ids of 32 lowercase
hexadecimal digits: 16 digits of a seed chosen once per run, then 16 digits of a counter. Ids of
one supply differ because the counter only grows; ids of runs with different seeds differ in
their first half.
-/

namespace SchemaDesign

/-- The lowercase hexadecimal digit of a number below 16. -/
def hexDigit (d : Nat) : Char := if d < 10 then Char.ofNat (48 + d) else Char.ofNat (87 + d)

/-- The last `width` hexadecimal digits of a number, padded with zeros. -/
def hexWidth : Nat → Nat → List Char
  | 0, _ => []
  | w + 1, n => hexWidth w (n / 16) ++ [hexDigit (n % 16)]

/-- A source of fresh ids. -/
structure IdSupply where
  seed : Nat
  next : Nat := 0
  deriving Repr, Inhabited

namespace IdSupply

/-- The id the supply hands out next. -/
def peek (s : IdSupply) : Id := ⟨String.ofList (hexWidth 16 s.seed ++ hexWidth 16 s.next)⟩

/-- An id, and the supply without it. -/
def mint (s : IdSupply) : Id × IdSupply := (s.peek, { s with next := s.next + 1 })

/-- The first of the supply's next `fuel` ids that `used` does not hold, and the supply after
it. -/
def mintUnused (s : IdSupply) (used : List Id) : Nat → Option (Id × IdSupply)
  | 0 => none
  | fuel + 1 => if used.contains s.peek then s.mint.2.mintUnused used fuel else some s.mint

end IdSupply

/-- Whether a character is a lowercase hexadecimal digit. -/
def isLowerHex (c : Char) : Bool := ('0' ≤ c && c ≤ '9') || ('a' ≤ c && c ≤ 'f')

end SchemaDesign
