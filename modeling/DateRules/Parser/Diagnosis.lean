import DateRules.Text.Quoted
import DateRules.Token.Lexer

/-!
# Why a text is not an expression

A `Diagnosis` names the cause for which a text is refused and the position at
which this shows. A text with a number too long to be read is not refused by
the grammar: that is a `ParseFailure` of its own.
-/

namespace DateRules

/-- What the grammar asks for at some position. -/
inductive Expectation where
  | integer
  | comparison
  | closing
  | endOfInput
deriving DecidableEq, Repr

namespace Expectation

def text : Expectation → String
  | integer => "integer expression"
  | comparison => "integer comparison"
  | closing => "')'"
  | endOfInput => "end of input"

end Expectation

/-- The greatest height of an expression that is accepted. -/
def maxHeight : Nat := 128

/-- The reasons to refuse a text. -/
inductive Complaint where
  /-- The text holds a character that begins no token. -/
  | unexpectedCharacter (code : Nat)
  /-- The grammar asks for something else than the token found, or than the end
  of the text if none is found. -/
  | unexpected (wanted : Expectation) (found : Option Lexeme)
  /-- There are more parentheses open at once than are followed. -/
  | nestedTooDeeply
  /-- The tree has more than `maxHeight` levels. -/
  | tooManyLevels
  /-- The source is no text at all, but a value of the kind named. -/
  | notText (kind : String)
deriving DecidableEq, Repr

namespace Complaint

/-- A lexeme as a message shows it. -/
def describeFound : Option Lexeme → String
  | some lexeme => Text.quoted lexeme.text
  | none => "end of input"

def message : Complaint → String
  | unexpectedCharacter code => "Unexpected character " ++ Text.quotedCodes [code]
  | unexpected wanted found =>
      "Expected " ++ wanted.text ++ ", found " ++ describeFound found
  | nestedTooDeeply => "Expression is nested too deeply"
  | tooManyLevels =>
      "Expression is nested too deeply (more than " ++ toString maxHeight ++ " levels)"
  | notText kind => "Expected string expression, got " ++ kind

end Complaint

/-- A reason to refuse a text, and where it shows. -/
structure Diagnosis where
  complaint : Complaint
  position : Nat
deriving DecidableEq, Repr

namespace Diagnosis

def message (d : Diagnosis) : String := d.complaint.message

/-- The message with the position after it. -/
def report (d : Diagnosis) : String :=
  d.message ++ " (at position " ++ toString d.position ++ ")"

end Diagnosis

/-- The greatest number of digits of a literal that is read. -/
def maxDigits : Nat := 4300

/-- A literal with too many digits, and their number. -/
structure OverlongLiteral where
  digits : Nat
deriving DecidableEq, Repr

namespace OverlongLiteral

def message (l : OverlongLiteral) : String :=
  "Exceeds the limit (" ++ toString maxDigits ++
    " digits) for integer string conversion: value has " ++ toString l.digits ++
    " digits; use sys.set_int_max_str_digits() to increase the limit"

end OverlongLiteral

/-- The ways in which reading an expression fails. -/
inductive ParseFailure where
  | refused (diagnosis : Diagnosis)
  | overlong (literal : OverlongLiteral)
deriving DecidableEq, Repr

end DateRules
