/-!
# Places in a document

A `Cursor` is a place in the text of a document: what is left of the text, and
the line and the column of the place. The module also names the classes of
characters that the rules of the format speak of. The end of the text belongs
to every class that ends something, so these classes take an optional
character.
-/

namespace DateRules

namespace Yaml

/-- The ways in which a document cannot be read. -/
inductive Fault where
  /-- The text breaks the rules of the format. -/
  | malformed
  /-- A scalar is written as no value of its kind can be. -/
  | invalid (reason : String)
  /-- A scalar that should be a number is empty. -/
  | noNumber
  /-- A scalar that should be a truth value is another word. -/
  | noTruth (word : String)
  /-- A scalar that should be a date is none. -/
  | noTime
  /-- A mapping stands where a date should. -/
  | noTimeText
  /-- A mapping stands for itself. -/
  | endless
  /-- A number has too many digits. -/
  | overlong
  /-- A number is too large for its use. -/
  | overflow
deriving DecidableEq, Repr

/-- Whether a character ends a line. -/
def isBreak (c : Char) : Bool :=
  c == '\n' || c == '\r' || c == '\u0085' || c == '\u2028' || c == '\u2029'

/-- Whether a place is at the end of a line or at a space. -/
def atFieldEnd : Option Char → Bool
  | none => true
  | some c => c == ' ' || isBreak c

/-- Whether a place is at the end of a line, at a space or at a tab. -/
def atWordEnd : Option Char → Bool
  | none => true
  | some c => c == ' ' || c == '\t' || isBreak c

/-- Whether a character may stand in a document. -/
def isAllowed (c : Char) : Bool :=
  let code := c.toNat
  code == 0x09 || code == 0x0a || code == 0x0d || (0x20 ≤ code && code ≤ 0x7e) ||
    code == 0x85 || (0xa0 ≤ code && code ≤ 0xd7ff) || (0xe000 ≤ code && code ≤ 0xfffd) ||
    0x10000 ≤ code

/-- Whether a character may stand in the name of an anchor or of a handle. -/
def isNameChar (c : Char) : Bool := c.isAlphanum || c == '-' || c == '_'

/-- Whether a character may stand in a tag. -/
def isTagChar (c : Char) : Bool :=
  c.isAlphanum || "-;/?:@&=+$,_.!~*'()[]%".toList.contains c

/-- The value of a hexadecimal digit. -/
def hexValue? (c : Char) : Option Nat :=
  if '0' ≤ c && c ≤ '9' then some (c.toNat - '0'.toNat)
  else if 'a' ≤ c && c ≤ 'f' then some (c.toNat - 'a'.toNat + 10)
  else if 'A' ≤ c && c ≤ 'F' then some (c.toNat - 'A'.toNat + 10)
  else none

/-- The number that hexadecimal digits write. -/
def hexNumber? (cs : List Char) : Option Nat :=
  cs.foldl (fun n c => do return 16 * (← n) + (← hexValue? c)) (some 0)

/-- The mark that may stand at the start of a text to tell the order of its
bytes. It has no width. -/
def byteOrderMark : Char := '\ufeff'

/-- A place in a text. The size is the number of characters of the whole text,
which bounds every walk from the place on. -/
structure Cursor where
  rest : List Char
  size : Nat
  index : Nat
  line : Nat
  column : Nat

namespace Cursor

/-- The start of a text. -/
def start (text : List Char) : Cursor := ⟨text, text.length, 0, 0, 0⟩

/-- The character at a place, unless it is the end. -/
def peek (c : Cursor) : Option Char := c.rest.head?

/-- The character some way after a place, unless the text ends before it. -/
def peekAt (c : Cursor) (offset : Nat) : Option Char := c.rest[offset]?

/-- The place after one character. -/
def step (c : Cursor) : Cursor :=
  match c.rest with
  | [] => c
  | ch :: rest =>
      if isBreak ch && !(ch == '\r' && rest.head? == some '\n') then
        ⟨rest, c.size, c.index + 1, c.line + 1, 0⟩
      else if ch == byteOrderMark then
        ⟨rest, c.size, c.index + 1, c.line, c.column⟩
      else
        ⟨rest, c.size, c.index + 1, c.line, c.column + 1⟩

/-- The place after some characters. -/
def advance (c : Cursor) : Nat → Cursor
  | 0 => c
  | n + 1 => c.step.advance n

/-- The characters of a class from a place on, and the place after them. -/
def span (c : Cursor) (inClass : Char → Bool) : List Char × Cursor :=
  let found := c.rest.takeWhile inClass
  (found, c.advance found.length)

/-- The place after characters of a class. -/
def skip (c : Cursor) (inClass : Char → Bool) : Cursor := (c.span inClass).2

/-- The place after spaces. -/
def skipSpaces (c : Cursor) : Cursor := c.skip (· == ' ')

/-- The place after a comment, if there is one. -/
def skipComment (c : Cursor) : Cursor :=
  if c.peek == some '#' then c.skip (!isBreak ·) else c

/-- A line break as it counts in text, and the place after it. -/
def lineBreak? (c : Cursor) : Option (Char × Cursor) :=
  match c.rest with
  | '\r' :: '\n' :: _ => some ('\n', c.advance 2)
  | ch :: _ =>
      if isBreak ch then
        some (if ch == '\u2028' || ch == '\u2029' then ch else '\n', c.step)
      else
        none
  | [] => none

/-- The place after spaces, a comment and the line break, where nothing else may
stand before the end of the line. -/
def endLine (c : Cursor) : Except Fault Cursor :=
  let c := c.skipSpaces.skipComment
  match c.lineBreak? with
  | some (_, c) => .ok c
  | none => if c.rest.isEmpty then .ok c else .error .malformed

/-- Whether three dashes or three points stand alone at a place. -/
def atSeparator (c : Cursor) : Bool :=
  match c.rest with
  | '-' :: '-' :: '-' :: after => atWordEnd after.head?
  | '.' :: '.' :: '.' :: after => atWordEnd after.head?
  | _ => false

end Cursor

end Yaml

end DateRules
