import SchemaDesign.Json.Parse
import SchemaDesign.Json.Decode

/-!
# Reading typed values out of JSON text

A text is read in one pass: the first fault met is the one reported, with its place as a line
and a byte column. A fault of syntax is found by the reader; a value of the wrong shape is found
by its decoder and placed through the places the reader recorded. When the text breaks off, what
was read before the break is decoded as well, and a refusal of it that would have been met before
the break is reported instead.

The place of a refusal depends on how far the reading had gone when it was made: just after a
value of the wrong kind, or at the first byte of an array or object in place of something else;
after an object that lacks a member; after the key of a member given twice and the blanks that
follow it; one byte into a value that should name a choice, and for an object naming one, just
after a key that names no choice, at its closing brace when it is empty, or at the comma after
its first member. Contents read ahead and kept are read only after
the array item holding them has been passed, so a refusal among them is placed where the array's
reading stopped: at the next item, or after the closing bracket.
-/

namespace SchemaDesign

namespace DecodeError

/-- Whether a refusal was met in contents read ahead. -/
def isBuffered : DecodeError → Bool
  | .buffered _ => true
  | _ => false

/-- The byte offset a refusal is reported at, for a refusal of the value at `spot`;
`blankEnd p` is the offset of the first byte at or after `p` that is not a blank. A refusal that
is only made at the end of a value the text breaks off inside is never made: `none`. -/
def offset? (blankEnd : Nat → Nat) : DecodeError → Json.Spot → Option Nat
  | .inside i e, .items _ stop closed spots =>
    match spots[i]? with
    | some s =>
      -- contents read ahead are read once their item is over
      if e.isBuffered then
        if s.closed then some (((spots[i + 1]?).map Json.Spot.start).getD stop) else none
      else offset? blankEnd e s
    | none => if closed then some stop else none
  | .inside i e, .members _ stop closed ms =>
    match ms[i]? with
    | some (_, s) => offset? blankEnd e s
    | none => if closed then some stop else none
  | .atKey i e, .members _ stop closed ms =>
    match ms[i]? with
    -- a choice's name is refused as soon as it is read, a record's key given twice only once
    -- the reader has passed the blanks after it
    | some (keyEnd, _) =>
      match e with
      | .unknownVariant .. => some keyEnd
      | _ => some (blankEnd keyEnd)
    | none => if closed then some stop else none
  | .numberOutOfRange consumed, s => some (s.start + consumed)
  | .invalidType found _, s =>
    if found = "sequence" || found = "map" then some s.start else s.end?
  | .notVariant _, s => some (s.start + 1)
  | .trailingItems .., s => some (s.start + 1)
  -- an empty object is refused on seeing its closing brace, a longer one at the comma after
  -- its first member
  | .notSingleKey, .members _ stop closed [] => if closed then some stop else none
  | .notSingleKey, .members _ _ _ ((_, v) :: _) => some (blankEnd v.stop)
  | .severalKeys e, s => offset? blankEnd e s
  | _, s => s.end?

end DecodeError

namespace Json

/-- Reads a JSON text as a value of a type, or says why not and where. Of a refusal of syntax
and a refusal of what was read before it, the one met first is reported. -/
def read {α : Type} (text : String) (decode : Decoder α) : Except String α :=
  let bytes := text.toUTF8.toList
  let blankEnd (p : Nat) : Nat :=
    p + ((bytes.drop p).takeWhile fun b => b = 32 || b = 9 || b = 10 || b = 13).length
  let placed (e : DecodeError) (offset : Nat) : String :=
    let (line, column) := lineColumn text offset
    e.message ++ " at line " ++ toString line ++ " column " ++ toString column
  match parseSpotted text with
  | .ok (j, spot) =>
    match decode j with
    | .ok a => .ok a
    | .error e => .error (placed e ((e.offset? blankEnd spot).getD spot.stop))
  | .error (broken, read) =>
    let refusal := match read with
      | some (j, spot) =>
        match decode j with
        | .error e => (e.offset? blankEnd spot).map (placed e)
        | .ok _ => none
      | none => none
    .error (refusal.getD (broken.message text))

end Json

end SchemaDesign
