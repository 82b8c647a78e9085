/-!
# Time stamps

Log lines start with the time they were written, in RFC 3339 form with microseconds and in UTC:
`2024-05-01T12:34:56.789012Z`. A moment is counted in nanoseconds since the start of
1970-01-01 UTC; the calendar date of a day number follows the proleptic Gregorian calendar,
read off the 400-year cycle of 146097 days, with years taken to start on 1 March so that the
leap day ends them.
-/

namespace SchemaDesign

namespace Cli

/-- The year, month and day of a day counted from 1970-01-01. -/
def civilDate (days : Nat) : Nat × Nat × Nat :=
  let z := days + 719468
  let era := z / 146097
  let dayOfEra := z - era * 146097
  let yearOfEra := (dayOfEra - dayOfEra / 1460 + dayOfEra / 36524 - dayOfEra / 146096) / 365
  let dayOfYear := dayOfEra - (365 * yearOfEra + yearOfEra / 4 - yearOfEra / 100)
  let shifted := (5 * dayOfYear + 2) / 153
  let day := dayOfYear - (153 * shifted + 2) / 5 + 1
  let month := if shifted < 10 then shifted + 3 else shifted - 9
  let year := yearOfEra + era * 400
  (if month ≤ 2 then year + 1 else year, month, day)

/-- A number written with at least `width` digits, padded with zeros. -/
def zeroPad (width n : Nat) : String :=
  let digits := toString n
  String.ofList (List.replicate (width - digits.length) '0') ++ digits

/-- A moment, in nanoseconds since 1970-01-01 UTC, as RFC 3339 text with microseconds. -/
def rfc3339 (nanos : Nat) : String :=
  let seconds := nanos / 1000000000
  let micros := nanos % 1000000000 / 1000
  let (year, month, day) := civilDate (seconds / 86400)
  let time := seconds % 86400
  zeroPad 4 year ++ "-" ++ zeroPad 2 month ++ "-" ++ zeroPad 2 day ++ "T" ++
    zeroPad 2 (time / 3600) ++ ":" ++ zeroPad 2 (time / 60 % 60) ++ ":" ++
    zeroPad 2 (time % 60) ++ "." ++ zeroPad 6 micros ++ "Z"

end Cli

end SchemaDesign
