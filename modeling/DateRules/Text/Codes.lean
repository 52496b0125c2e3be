/-!
# Text as codes

A text whose characters are written by their codes may hold codes that belong to
no character: each half of a surrogate pair has one. `Codes` is such a text, and
`Codes.toString?` gives the proper text that it is, if it is one.
-/

namespace DateRules

namespace Text

/-- The character with a code, if there is one. -/
def charOfCode? (code : Nat) : Option Char :=
  if code.isValidChar then some (Char.ofNat code) else none

/-- The character that shows in place of one that is missing. -/
def replacementChar : Char := '\ufffd'

/-- Text as the codes of its characters. -/
abbrev Codes := List Nat

namespace Codes

def ofChars (cs : List Char) : Codes := cs.map Char.toNat

def ofString (text : String) : Codes := ofChars text.toList

/-- The characters of a text, with a replacement for each code of no character. -/
def toChars (codes : Codes) : List Char :=
  codes.map fun code => (charOfCode? code).getD replacementChar

/-- The text with the given codes, if each belongs to a character. -/
def toString? (codes : Codes) : Option String := (codes.mapM charOfCode?).map String.ofList

/-- The characters before the first code of no character. -/
def intact : Codes → List Char
  | [] => []
  | code :: codes =>
      match charOfCode? code with
      | some c => c :: intact codes
      | none => []

/-- The text with the given codes, with a replacement for each code of no
character. -/
def replaced (codes : Codes) : String := String.ofList codes.toChars

end Codes

end Text

end DateRules
