import SchemaDesign.Text.Unicode

/-!
# Quoted texts

How messages show a text that was not what was expected: between double quotes, with the
characters that cannot stand for themselves escaped. The quote and the backslash are escaped
with a backslash, the null character, the tab, the carriage return and the line feed by their
short escapes, and every character that is not printable or that extends the grapheme before it
by its code point, `\u` and lower-case hexadecimal digits in braces.
-/

namespace SchemaDesign

/-- The lower-case hexadecimal digits of a number. -/
def hexDigits (n : Nat) : String := String.ofList (Nat.toDigits 16 n)

/-- A character inside a quoted text. -/
def quotedChar (c : Char) : String :=
  if c = '\x00' then "\\0"
  else if c = '\t' then "\\t"
  else if c = '\r' then "\\r"
  else if c = '\n' then "\\n"
  else if c = '\\' then "\\\\"
  else if c = '"' then "\\\""
  else if Unicode.isGraphemeExtend c || !Unicode.isPrintable c then
    "\\u\x7b" ++ hexDigits c.toNat ++ "\x7d"
  else c.toString

/-- A text between double quotes, its characters written as `quotedChar` writes them. -/
def debugQuote (s : String) : String :=
  "\"" ++ String.join (s.toList.map quotedChar) ++ "\""

end SchemaDesign
