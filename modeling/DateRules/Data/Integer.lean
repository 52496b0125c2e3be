import DateRules.Data.Issue
import DateRules.Text.Blank

/-!
# Integers in data

An integer may be given as such, as a truth value, as a double without a
fraction, or as text: a decimal with white space around it, a sign, zeros at
its front, single underscores between its digits, and a point that only zeros
follow. Zeros may also stand before a minus sign.
-/

namespace DateRules

open Text

namespace IntegerText

/-- A text without the plus sign at its front, which no minus sign may follow. -/
def dropPlus? : List Char → Option (List Char)
  | '+' :: '-' :: _ => none
  | '+' :: cs => some cs
  | cs => some cs

/-- Whether a character may come first where no zeros do. -/
def beginsNumber (c : Char) : Bool := c == '-' || (isDigit c && c != '0')

/-- What follows zeros, where `last` is the last character before. Underscores
among the zeros are skipped. If nothing is left of the whole part, its last
character stands for it. -/
def afterZeros? (last : Char) : List Char → Option (List Char)
  | [] => some [last]
  | c :: cs =>
      if c == '0' || c == '_' then afterZeros? c cs
      else if beginsNumber c then some (c :: cs)
      else if c == '.' then some (last :: c :: cs)
      else none

/-- A text without the zeros at its front. -/
def dropZeros? : List Char → Option (List Char)
  | [] => none
  | c :: cs =>
      if beginsNumber c then some (c :: cs)
      else if c == '0' then afterZeros? c cs
      else none

/-- A text without a point at its end that only zeros follow. -/
def dropFraction (cs : List Char) : List Char :=
  match cs.span (· != '.') with
  | (whole, _ :: zero :: zeros) => if (zero :: zeros).all (· == '0') then whole else cs
  | _ => cs

/-- Whether two underscores are side by side in a text. -/
def hasDoubledMark (cs : List Char) : Bool :=
  (cs.zip (cs.drop 1)).any fun pair => pair.1 == '_' && pair.2 == '_'

/-- A text without its underscores, unless one is at an end of it or two are
side by side. -/
def dropMarks (cs : List Char) : List Char :=
  if cs.head? == some '_' || cs.getLast? == some '_' || hasDoubledMark cs then cs
  else cs.filter (· != '_')

/-- A text with nothing left but a minus sign and digits, if it is an integer. -/
def plain? (text : List Char) : Option (List Char) := do
  let unsigned ← dropPlus? (trimWhiteSpace text)
  let number ← dropZeros? unsigned
  some (dropMarks (dropFraction number))

/-- A text without the minus sign at its front, and whether there is one. -/
def splitMinus : List Char → Bool × List Char
  | '-' :: cs => (true, cs)
  | cs => (false, cs)

end IntegerText

/-- The greatest number of characters of an integer given as text. -/
def maxIntegerText : Nat := 4300

open IntegerText in
/-- The integer that a text gives. Its digits are read before what follows them:
too many of them are an issue by themselves. As in pydantic 2.8, zeros and underscores
are dropped before a minus sign but not after it, so `-01` is no integer and `-_2` is -2;
pydantic 2.13.4 reads these two the other way. -/
def integerOfText (text : String) : Checked Int :=
  match plain? text.toList with
  | none => .fail .notIntegerText
  | some plain =>
      let (negative, unsigned) := splitMinus plain
      let digits := unsigned.takeWhile isDigit
      let rest := unsigned.drop digits.length
      let written := if negative then digits.length + 1 else digits.length
      if digits.head? == some '0' || digits.isEmpty then
        if unsigned == ['0'] then .ok 0 else .fail .notIntegerText
      else if maxIntegerText < written then .fail .integerTooLong
      else if rest.isEmpty then
        let value : Int := Nat.ofDigitChars 10 digits 0
        .ok (if negative then -value else value)
      else .fail .notIntegerText

/-- The integer that a double gives. -/
def integerOfFloat (x : Float) : Checked Int :=
  match FloatValue.ofFloat x with
  | .finite negative mantissa exponent =>
      match (FloatValue.finite negative mantissa exponent).toInt? with
      | none => .fail .fractional
      | some n => if -wordBound < n && n < wordBound then .ok n else .fail .integerTooLong
  | _ => .fail .notFinite

/-- The integer that a value gives. Bytes are read as UTF-8. -/
def Value.toInteger : Value → Checked Int
  | .int n => .ok n
  | .bool b => .ok (if b then 1 else 0)
  | .float x => integerOfFloat x
  | .text s => integerOfText s
  | .brokenText _ => .fail .notUnicode
  | .bytes data =>
      match String.fromUTF8? ⟨data.toArray⟩ with
      | some s => integerOfText s
      | none => .fail .notIntegerText
  | _ => .fail .notInteger

/-- The text that a value gives. Bytes are read as UTF-8, and codes of no
character are replaced. -/
def Value.toText : Value → Checked String
  | .text s => .ok s
  | .brokenText codes => .ok codes.replaced
  | .bytes data =>
      match String.fromUTF8? ⟨data.toArray⟩ with
      | some s => .ok s
      | none => .fail .notUnicode
  | _ => .fail .notText

end DateRules
