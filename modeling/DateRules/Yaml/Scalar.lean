import DateRules.Text.Codes
import DateRules.Yaml.Cursor

/-!
# Scalars

The text of scalars in their three written forms: in quotes, as a block of
indented lines, and plain. In all of them a line break within a paragraph counts
as a space and empty lines count as line breaks; a literal block keeps its line
breaks. Only an escape in double quotes can write a code of no character.

The loops over lines take a bound on the number of lines or of pieces that are
left; the functions that start them give the size of the text.
-/

namespace DateRules

namespace Yaml

open Text (Codes)

/-- Text that was read, and the place after it. -/
abbrev Reading := Except Fault (List Char × Cursor)

/-- Codes that were read, and the place after them. -/
abbrev CodeReading := Except Fault (Codes × Cursor)

/-- What a line break followed by the given further ones counts as. -/
def foldedBreaks (first : Char) (further : List Char) : List Char :=
  if first != '\n' then first :: further
  else if further.isEmpty then [' ']
  else further

/-! ## Quoted scalars -/

/-- The characters that a backslash and a letter stand for. -/
def escapedChar? : Char → Option Char
  | '0' => some (Char.ofNat 0x00)
  | 'a' => some (Char.ofNat 0x07)
  | 'b' => some (Char.ofNat 0x08)
  | 't' => some '\t'
  | '\t' => some '\t'
  | 'n' => some '\n'
  | 'v' => some (Char.ofNat 0x0b)
  | 'f' => some (Char.ofNat 0x0c)
  | 'r' => some '\r'
  | 'e' => some (Char.ofNat 0x1b)
  | ' ' => some ' '
  | '"' => some '"'
  | '\\' => some '\\'
  | '/' => some '/'
  | 'N' => some '\u0085'
  | '_' => some '\u00a0'
  | 'L' => some '\u2028'
  | 'P' => some '\u2029'
  | _ => none

/-- The number of hexadecimal digits after a backslash and a letter. -/
def escapeLength? : Char → Option Nat
  | 'x' => some 2
  | 'u' => some 4
  | 'U' => some 8
  | _ => none

/-- A code as an escape can write it. -/
def checkCode (code : Nat) : Except Fault Nat :=
  if Nat.pow 2 31 ≤ code then .error .overflow
  else if 0x110000 ≤ code then .error (.invalid "chr() arg not in range(0x110000)")
  else .ok code

/-- The line breaks of empty lines in a quoted scalar. -/
def quotedBreaks (c : Cursor) : Nat → Reading
  | 0 => .error .malformed
  | lines + 1 =>
      if c.atSeparator then
        .error .malformed
      else
        let c := c.skip fun ch => ch == ' ' || ch == '\t'
        match c.lineBreak? with
        | none => .ok ([], c)
        | some (ch, c) => do
            let (breaks, c) ← quotedBreaks c lines
            .ok (ch :: breaks, c)

/-- The blanks in a quoted scalar, of which some begin at a place. -/
def quotedBlanks (c : Cursor) : Reading :=
  let (blanks, c) := c.span fun ch => ch == ' ' || ch == '\t'
  if c.rest.isEmpty then
    .error .malformed
  else
    match c.lineBreak? with
    | none => .ok (blanks, c)
    | some (ch, c) => do
        let (breaks, c) ← quotedBreaks c (c.size + 1)
        .ok (foldedBreaks ch breaks, c)

/-- What a backslash in a double-quoted scalar begins, from the character after
the backslash on. -/
def quotedEscape (c : Cursor) : CodeReading :=
  match c.peek with
  | none => .error .malformed
  | some ch =>
      match escapedChar? ch, escapeLength? ch with
      | some meant, _ => .ok ([meant.toNat], c.step)
      | none, some length =>
          let digits := c.step.rest.take length
          match hexNumber? digits with
          | none => .error .malformed
          | some number =>
              if digits.length = length then do
                let code ← checkCode number
                .ok ([code], c.step.advance length)
              else
                .error .malformed
      | none, none =>
          match c.lineBreak? with
          | some (_, c) => do
              let (breaks, c) ← quotedBreaks c (c.size + 1)
              .ok (Codes.ofChars breaks, c)
          | none => .error .malformed

/-- The rest of a quoted scalar, where `done` holds the codes before it, the last
one first. -/
def quotedPieces (double : Bool) (done : Codes) (c : Cursor) : Nat → CodeReading
  | 0 => .error .malformed
  | pieces + 1 =>
      match c.rest with
      | [] => .error .malformed
      | ch :: after =>
          if ch == '\'' && !double then
            if after.head? == some '\'' then
              quotedPieces double (ch.toNat :: done) (c.advance 2) pieces
            else
              .ok (done.reverse, c.step)
          else if ch == '"' && double then
            .ok (done.reverse, c.step)
          else if ch == '\\' && double then
            match quotedEscape c.step with
            | .ok (piece, c) => quotedPieces double (piece.reverse ++ done) c pieces
            | .error fault => .error fault
          else if ch == ' ' || ch == '\t' || isBreak ch then
            match quotedBlanks c with
            | .ok (piece, c) =>
                quotedPieces double ((Codes.ofChars piece).reverse ++ done) c pieces
            | .error fault => .error fault
          else
            quotedPieces double (ch.toNat :: done) c.step pieces

/-- A quoted scalar, from the character after its opening quote on. -/
def quotedScalar (double : Bool) (c : Cursor) : CodeReading :=
  quotedPieces double [] c (c.size + 1)

/-! ## Block scalars -/

/-- What happens to the line breaks at the end of a block scalar. -/
inductive Chomping where
  | strip
  | clip
  | keep
deriving DecidableEq, Repr

/-- How the end of a block scalar is chomped. -/
def chomping? : Option Char → Option Chomping
  | some '+' => some .keep
  | some '-' => some .strip
  | _ => none

/-- The number of columns that a block scalar is indented by, if it is given. -/
def increment? : Option Char → Option Nat
  | some c => if c.isDigit then some (c.toNat - '0'.toNat) else none
  | none => none

/-- The two indicators after the start of a block scalar, in any order. -/
def blockHeader (c : Cursor) : Except Fault ((Chomping × Option Nat) × Cursor) :=
  let (chomping, c) :=
    match chomping? c.peek with
    | some chomping => (some chomping, c.step)
    | none => (none, c)
  let (increment, c) :=
    match increment? c.peek with
    | some increment => (some increment, c.step)
    | none => (none, c)
  let (chomping, c) :=
    match chomping, increment, chomping? c.peek with
    | none, some _, some chomping => (some chomping, c.step)
    | chomping, _, _ => (chomping, c)
  if increment != some 0 && atFieldEnd c.peek then do
    let c ← c.endLine
    .ok ((chomping.getD .clip, increment), c)
  else
    .error .malformed

/-- The place after spaces, up to a column. -/
def skipIndent (column : Nat) (c : Cursor) : Cursor :=
  c.advance (min (column - c.column) (c.rest.takeWhile (· == ' ')).length)

/-- The empty lines of a block that is indented to a column. -/
def blockBreaks (column : Nat) (c : Cursor) : Nat → List Char × Cursor
  | 0 => ([], c)
  | lines + 1 =>
      let c := skipIndent column c
      match c.lineBreak? with
      | none => ([], c)
      | some (ch, c) =>
          let (breaks, c) := blockBreaks column c lines
          (ch :: breaks, c)

/-- The empty lines before a block whose indent is not given, and the greatest
column that their spaces reach. -/
def leadingBreaks (c : Cursor) : Nat → (List Char × Nat) × Cursor
  | 0 => (([], 0), c)
  | lines + 1 =>
      let c := c.skipSpaces
      match c.lineBreak? with
      | none => (([], c.column), c)
      | some (ch, after) =>
          let ((breaks, column), last) := leadingBreaks after lines
          ((ch :: breaks, max c.column column), last)

/-- The lines of a block, where `done` holds the characters before them, the last
one first, without the breaks of the empty lines before the place. -/
def blockLines (folded : Bool) (chomping : Chomping) (column : Nat) (done breaks : List Char)
    (c : Cursor) : Nat → List Char × Cursor
  | 0 => (done.reverse, c)
  | lines + 1 =>
      if c.column == column && !c.rest.isEmpty then
        let indented := c.peek == some ' ' || c.peek == some '\t'
        let (line, c) := c.span (!isBreak ·)
        let done := line.reverse ++ (breaks.reverse ++ done)
        let (lineBreak, c) :=
          match c.lineBreak? with
          | some (ch, c) => ([ch], c)
          | none => ([], c)
        let (further, c) := blockBreaks column c (c.size + 1)
        if c.column == column && !c.rest.isEmpty then
          let joined := folded && lineBreak == ['\n'] && !indented &&
            !(c.peek == some ' ' || c.peek == some '\t')
          let join := if joined then (if further.isEmpty then [' '] else []) else lineBreak
          blockLines folded chomping column (join.reverse ++ done) further c lines
        else
          let ending :=
            match chomping with
            | .strip => []
            | .clip => lineBreak
            | .keep => lineBreak ++ further
          ((ending.reverse ++ done).reverse, c)
      else
        (((if chomping == .keep then breaks else []).reverse ++ done).reverse, c)

/-- A block scalar, from the character after its indicator on, in a block that
is indented to `indent`. -/
def blockScalar (folded : Bool) (indent : Int) (c : Cursor) : Reading := do
  let ((chomping, increment), c) ← blockHeader c
  let least := (max (indent + 1) 1).toNat
  match increment with
  | none =>
      let ((breaks, found), c) := leadingBreaks c (c.size + 1)
      let column := max least found
      .ok (blockLines folded chomping column [] breaks c (c.size + 1))
  | some increment =>
      let column := least + increment - 1
      let (breaks, c) := blockBreaks column c (c.size + 1)
      .ok (blockLines folded chomping column [] breaks c (c.size + 1))

/-! ## Plain scalars -/

/-- Whether a plain scalar has a blank or an indicator at a character, given the
one after it. Within brackets more characters are indicators. -/
def endsPlainWord (inFlow : Bool) (c : Char) (next : Option Char) : Bool :=
  let indicatorNext := inFlow && (next == some ',' || next == some '[' ||
    next == some ']' || next == some '{' || next == some '}')
  atWordEnd (some c) || (c == ':' && (atWordEnd next || indicatorNext)) ||
    (inFlow && (c == ',' || c == '?' || c == '[' || c == ']' || c == '{' || c == '}'))

/-- The characters of a plain scalar up to the next blank or indicator, where
`done` holds those before, the last one first. -/
def plainWord (inFlow : Bool) (done : List Char) : List Char → List Char
  | [] => done.reverse
  | c :: cs =>
      if endsPlainWord inFlow c cs.head? then done.reverse
      else plainWord inFlow (c :: done) cs

/-- The empty lines and spaces after a line of a plain scalar. There are none
to read where a separator of documents follows. -/
def plainBreaks (c : Cursor) : Nat → Option (List Char) × Cursor
  | 0 => (none, c)
  | lines + 1 =>
      if c.atSeparator then
        (none, c)
      else
        let c := c.skipSpaces
        match c.lineBreak? with
        | none => (some [], c)
        | some (ch, c) =>
            let (breaks, c) := plainBreaks c lines
            (breaks.map (ch :: ·), c)

/-- The blanks after a word of a plain scalar, or none if the scalar ends, and
whether they hold a line break. -/
def plainBlanks (c : Cursor) : (Option (List Char) × Bool) × Cursor :=
  let (spaces, c) := c.span (· == ' ')
  match c.lineBreak? with
  | some (ch, c) =>
      let (breaks, c) := plainBreaks c (c.size + 1)
      ((breaks.map (foldedBreaks ch), true), c)
  | none => ((if spaces.isEmpty then none else some spaces, false), c)

/-- The words of a plain scalar, with the blanks before them, where `done` holds
the characters before, the last one first. Also tells whether a line break
follows the last word. -/
def plainWords (inFlow : Bool) (indent : Int) (done blanks : List Char) (broken : Bool)
    (c : Cursor) : Nat → (List Char × Bool) × Cursor
  | 0 => ((done.reverse, broken), c)
  | words + 1 =>
      let word := plainWord inFlow [] c.rest
      if c.peek == some '#' || word.isEmpty then
        ((done.reverse, broken), c)
      else
        let done := word.reverse ++ (blanks.reverse ++ done)
        let ((further, brokenNow), after) := plainBlanks (c.advance word.length)
        match further with
        | none => ((done.reverse, brokenNow), after)
        | some further =>
            if after.peek == some '#' || (!inFlow && (after.column : Int) < indent + 1) then
              ((done.reverse, brokenNow), after)
            else
              plainWords inFlow indent done further brokenNow after words

/-- A plain scalar in a block that is indented to `indent`, and whether a line
break follows its last word. -/
def plainScalar (inFlow : Bool) (indent : Int) (c : Cursor) : (List Char × Bool) × Cursor :=
  plainWords inFlow indent [] [] false c (c.size + 1)

end Yaml

end DateRules
