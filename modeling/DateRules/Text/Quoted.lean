import DateRules.Text.Codes
import DateRules.Text.Printable

/-!
# Quoted text

Messages show text in quotes. Single quotes are used, unless the text holds a
single quote and no double quote. A backslash, the quote in use and the three
usual control characters are escaped by a backslash; any other code of no
printable character is written in hexadecimal. Bytes are shown in the same way,
as far as they are ASCII.
-/

namespace DateRules

namespace Text

/-- The lower-case hexadecimal digits of a number, with leading zeros up to the
given width. -/
def hexadecimal (width n : Nat) : String :=
  let digits := Nat.toDigits 16 n
  String.ofList (List.replicate (width - digits.length) '0' ++ digits)

/-- A code as an escape of two, four or eight digits. -/
def escapeCode (code : Nat) : String :=
  if code < 0x100 then "\\x" ++ hexadecimal 2 code
  else if code < 0x10000 then "\\u" ++ hexadecimal 4 code
  else "\\U" ++ hexadecimal 8 code

/-- A code as it is written between the given quotes, where `shown` tells the
codes that are written as their characters. -/
def escape (shown : Nat → Bool) (quote : Char) (code : Nat) : String :=
  if code == '\\'.toNat then "\\\\"
  else if code == quote.toNat then String.ofList ['\\', quote]
  else if code == '\n'.toNat then "\\n"
  else if code == '\r'.toNat then "\\r"
  else if code == '\t'.toNat then "\\t"
  else if shown code then (Char.ofNat code).toString
  else escapeCode code

/-- The quotes that a text is written in. -/
def quoteFor (codes : Codes) : Char :=
  if codes.contains '\''.toNat && !codes.contains '"'.toNat then '"' else '\''

/-- Codes in quotes, with escapes. -/
def quotedWith (shown : Nat → Bool) (codes : Codes) : String :=
  let quote := quoteFor codes
  quote.toString ++ String.join (codes.map (escape shown quote)) ++ quote.toString

/-- The text with the given codes in quotes, with escapes. -/
def quotedCodes (codes : Codes) : String := quotedWith isPrintable codes

/-- A text in quotes, with escapes. -/
def quoted (text : String) : String := quotedCodes (Codes.ofString text)

/-- Bytes in quotes, of which the printable ASCII characters are shown. -/
def quotedBytes (data : List UInt8) : String :=
  "b" ++ quotedWith (fun code => 0x20 ≤ code && code < 0x7f) (data.map UInt8.toNat)

end Text

end DateRules
