import DateRules.Yaml.Scalar

/-!
# Symbols of a document

A document is read into a list of symbols: its indicators, scalars, names and
tags, and the starts and ends of its indented blocks, which have no character of
their own.

A key is recognised only by the colon after it. Therefore the place at which a
key may have begun is remembered for each level of brackets, and the symbol for
the key is put there when its colon comes. Such a key must be on one line and
near its colon.

A text with a fault has the symbols that are certain before the fault is met:
those before every place at which a key may still have begun.
-/

namespace DateRules

namespace Yaml

open Text (Codes)

/-- The symbols of a document. -/
inductive Symbol where
  | version (major : Nat)
  | handle (name meaning : String)
  /-- A directive that says nothing. -/
  | directive
  | documentStart
  | documentEnd
  | blockSequenceStart
  | blockMappingStart
  | blockEnd
  | flowSequenceStart
  | flowSequenceEnd
  | flowMappingStart
  | flowMappingEnd
  | key
  | value
  | blockEntry
  | flowEntry
  | alias (name : String)
  | anchor (name : String)
  /-- A tag by its handle, if it has one, and the rest of it. -/
  | tag (handle : Option String) (suffix : String)
  | scalar (text : Codes) (plain : Bool)
deriving DecidableEq, Repr

/-! ## Directives, names and tags -/

/-- The greatest number of digits of a number in a directive. -/
def maxDirectiveDigits : Nat := 4300

/-- A decimal number in a directive. -/
def directiveNumber (c : Cursor) : Except Fault (Nat × Cursor) :=
  match c.span Char.isDigit with
  | ([], _) => .error .malformed
  | (digits, c) =>
      if maxDirectiveDigits < digits.length then .error .overlong
      else .ok (Nat.ofDigitChars 10 digits 0, c)

/-- The handle of a tag: one exclamation mark, or two with a name between them.
A handle of one mark is followed by a space. -/
def tagHandle (c : Cursor) : Reading :=
  match c.rest with
  | '!' :: after =>
      let name := after.takeWhile isNameChar
      let rest := after.drop name.length
      if after.head? == some ' ' then .ok (['!'], c.step)
      else if rest.head? == some '!' then
        .ok ('!' :: name ++ ['!'], c.advance (name.length + 2))
      else .error .malformed
  | _ => .error .malformed

/-- Escaped bytes, as numbers, and the place after them. -/
def escapedBytes (c : Cursor) : Nat → Except Fault (List UInt8 × Cursor)
  | 0 => .ok ([], c)
  | bytes + 1 =>
      if c.peek == some '%' then
        match hexNumber? (c.step.rest.take 2), c.step.rest.take 2 with
        | some byte, [_, _] => do
            let (more, c) ← escapedBytes (c.advance 3) bytes
            .ok (byte.toUInt8 :: more, c)
        | _, _ => .error .malformed
      else
        .ok ([], c)

/-- The characters of a tag, with escaped characters decoded, where `done` holds
those before, the last one first. -/
def tagText (done : List Char) (c : Cursor) : Nat → Reading
  | 0 => .ok (done.reverse, c)
  | chars + 1 =>
      match c.peek with
      | none => .ok (done.reverse, c)
      | some ch =>
          if ch == '%' then
            match escapedBytes c (c.size + 1) with
            | .error fault => .error fault
            | .ok (bytes, c) =>
                match String.fromUTF8? ⟨bytes.toArray⟩ with
                | none => .error .malformed
                | some piece => tagText (piece.toList.reverse ++ done) c chars
          else if isTagChar ch then
            tagText (ch :: done) c.step chars
          else
            .ok (done.reverse, c)

/-- The characters of a tag, of which there must be some. -/
def tagSuffix (c : Cursor) : Reading := do
  let (text, after) ← tagText [] c (c.size + 1)
  if after.index == c.index then .error .malformed else .ok (text, after)

/-- Whether a tag from a place on has a handle with a name. -/
def hasHandle (c : Cursor) : Bool :=
  ((c.rest.drop 1).dropWhile fun ch => !(ch == '!' || atFieldEnd (some ch))).head? == some '!'

/-- A tag, from its exclamation mark on. -/
def tagSymbol (c : Cursor) : Except Fault (Symbol × Cursor) := do
  let (symbol, c) ←
    if c.peekAt 1 == some '<' then do
      let (suffix, c) ← tagSuffix (c.advance 2)
      if c.peek == some '>' then .ok (Symbol.tag none (String.ofList suffix), c.step)
      else .error .malformed
    else if atWordEnd (c.peekAt 1) then
      .ok (Symbol.tag none "!", c.step)
    else do
      let (handle, c) ← if hasHandle c then tagHandle c else .ok (['!'], c.step)
      let (suffix, c) ← tagSuffix c
      .ok (Symbol.tag (some (String.ofList handle)) (String.ofList suffix), c)
  if atFieldEnd c.peek then .ok (symbol, c) else .error .malformed

/-- The name of an anchor or an alias, from the character after its indicator
on. -/
def anchorName (c : Cursor) : Except Fault (String × Cursor) :=
  match c.span isNameChar with
  | ([], _) => .error .malformed
  | (name, c) =>
      let ended := match c.peek with
        | none => true
        | some ch => atWordEnd (some ch) || "?:,]\x7d%@".toList.contains ch || ch.toNat == 0x60
      if ended then .ok (String.ofList name, c) else .error .malformed

/-- A version directive, from the character after its name on. -/
def versionDirective (c : Cursor) : Except Fault (Symbol × Cursor) := do
  let (major, c) ← directiveNumber c.skipSpaces
  if c.peek == some '.' then do
    let (_, c) ← directiveNumber c.step
    if atFieldEnd c.peek then .ok (.version major, c) else .error .malformed
  else
    .error .malformed

/-- A directive for a handle, from the character after its name on. -/
def handleDirective (c : Cursor) : Except Fault (Symbol × Cursor) := do
  let (handle, c) ← tagHandle c.skipSpaces
  if c.peek == some ' ' then do
    let (meaning, c) ← tagSuffix c.skipSpaces
    if atFieldEnd c.peek then
      .ok (.handle (String.ofList handle) (String.ofList meaning), c)
    else
      .error .malformed
  else
    .error .malformed

/-- A directive, from its percent sign on, with the end of its line. -/
def directiveSymbol (c : Cursor) : Except Fault (Symbol × Cursor) := do
  let (name, c) := c.step.span isNameChar
  if name.isEmpty || !atFieldEnd c.peek then
    .error .malformed
  else do
    let (symbol, c) ←
      if name == "YAML".toList then versionDirective c
      else if name == "TAG".toList then handleDirective c
      else .ok (.directive, c.skip (!isBreak ·))
    let c ← c.endLine
    .ok (symbol, c)

/-! ## Reading symbols -/

/-- A place at which a key may have begun. -/
structure KeyPlace where
  /-- The number of symbols before the place. -/
  symbols : Nat
  /-- Whether the place must be a key, since nothing else may begin there. -/
  required : Bool
  index : Nat
  line : Nat
  column : Nat

/-- The state of reading a document. -/
structure Progress where
  cursor : Cursor
  /-- The symbols so far, the last one first. -/
  symbols : List Symbol
  /-- The number of symbols so far. -/
  count : Nat
  /-- The number of brackets that are open. -/
  flowLevel : Nat
  /-- The column that the innermost block is indented to, and those of the
  blocks around it. -/
  indent : Int
  outerIndents : List Int
  /-- Whether a key may begin at the next symbol. -/
  keyAllowed : Bool
  /-- The places at which keys may have begun, by their level of brackets. -/
  keyPlaces : List (Nat × KeyPlace)

namespace Progress

def start (text : List Char) : Progress :=
  { cursor := Cursor.start text
    symbols := []
    count := 0
    flowLevel := 0
    indent := -1
    outerIndents := []
    keyAllowed := true
    keyPlaces := [] }

def inFlow (p : Progress) : Bool := p.flowLevel != 0

/-- Adds a symbol. -/
def push (p : Progress) (symbol : Symbol) : Progress :=
  { p with symbols := symbol :: p.symbols, count := p.count + 1 }

/-- Adds a symbol that ends at a place. -/
def emit (p : Progress) (symbol : Symbol) (after : Cursor) : Progress :=
  { p.push symbol with cursor := after }

/-- Ends the blocks that are indented deeper than a column. -/
def endBlocks (column : Int) : List Int → Progress → Progress
  | [], p => p
  | outer :: rest, p =>
      if column < p.indent then
        endBlocks column rest ({ p with indent := outer, outerIndents := rest }.push .blockEnd)
      else
        p

/-- Ends the blocks that are indented deeper than a column, outside brackets. -/
def unindent (p : Progress) (column : Int) : Progress :=
  if p.inFlow then p else endBlocks column p.outerIndents p

/-- Begins a block if the column is deeper than the innermost one. -/
def beginBlock (p : Progress) (column : Nat) (symbol : Symbol) : Progress :=
  if p.indent < column then
    { p with indent := column, outerIndents := p.indent :: p.outerIndents }.push symbol
  else
    p

/-- The place at which a key may have begun at the level of brackets at hand. -/
def keyPlace? (p : Progress) : Option KeyPlace :=
  (p.keyPlaces.find? (·.1 == p.flowLevel)).map (·.2)

/-- Forgets the place of a possible key at the level at hand. -/
def dropKeyPlace (p : Progress) : Progress :=
  { p with keyPlaces := p.keyPlaces.filter (·.1 != p.flowLevel) }

/-- Gives up the place of a possible key at the level at hand. -/
def giveUpKey (p : Progress) : Except Fault Progress :=
  match p.keyPlace? with
  | some place => if place.required then .error .malformed else .ok p.dropKeyPlace
  | none => .ok p

/-- Whether a key that began at a place can no longer end. -/
def isStale (p : Progress) (place : KeyPlace) : Bool :=
  place.line != p.cursor.line || 1024 < p.cursor.index - place.index

/-- Gives up all places whose keys can no longer end. -/
def giveUpStaleKeys (p : Progress) : Except Fault Progress :=
  if p.keyPlaces.any fun entry => p.isStale entry.2 && entry.2.required then
    .error .malformed
  else
    .ok { p with keyPlaces := p.keyPlaces.filter fun entry => !p.isStale entry.2 }

/-- Remembers that a key may begin at the next symbol, if it may. -/
def markKey (p : Progress) : Except Fault Progress :=
  if p.keyAllowed then do
    let required := !p.inFlow && p.indent == p.cursor.column
    let p ← p.giveUpKey
    let place : KeyPlace :=
      { symbols := p.count
        required := required
        index := p.cursor.index
        line := p.cursor.line
        column := p.cursor.column }
    .ok { p with keyPlaces := (p.flowLevel, place) :: p.keyPlaces }
  else
    .ok p

/-- Sets whether a key may begin at the next symbol. -/
def allowKey (p : Progress) (allowed : Bool) : Progress := { p with keyAllowed := allowed }

/-- Skips spaces, comments and line breaks. Outside brackets a key may begin on
a new line. -/
def skipBlanks (p : Progress) : Nat → Progress
  | 0 => p
  | lines + 1 =>
      let c := p.cursor.skipSpaces.skipComment
      match c.lineBreak? with
      | none => { p with cursor := c }
      | some (_, c) =>
          { p with cursor := c, keyAllowed := p.keyAllowed || !p.inFlow }.skipBlanks lines

/-- Reads the separator of documents at the cursor. -/
def separator (p : Progress) (symbol : Symbol) : Except Fault Progress := do
  let p ← (p.unindent (-1)).giveUpKey
  .ok ((p.allowKey false).emit symbol (p.cursor.advance 3))

/-- Reads an opening bracket. -/
def openBracket (p : Progress) (symbol : Symbol) : Except Fault Progress := do
  let p ← p.markKey
  .ok ({ p with flowLevel := p.flowLevel + 1, keyAllowed := true }.emit symbol p.cursor.step)

/-- Reads a closing bracket, which must close one. -/
def closeBracket (p : Progress) (symbol : Symbol) : Except Fault Progress := do
  let p ← p.giveUpKey
  if p.inFlow then
    .ok ({ p with flowLevel := p.flowLevel - 1, keyAllowed := false }.emit symbol
      p.cursor.step)
  else
    .error .malformed

/-- Begins a block for an indicator outside brackets, where a key may begin. -/
def beginAt (p : Progress) (symbol : Symbol) : Except Fault Progress :=
  if p.inFlow then .ok p
  else if p.keyAllowed then .ok (p.beginBlock p.cursor.column symbol)
  else .error .malformed

/-- Reads the dash of a list item. -/
def readBlockEntry (p : Progress) : Except Fault Progress := do
  let p ← p.beginAt .blockSequenceStart
  let p ← (p.allowKey true).giveUpKey
  .ok (p.emit .blockEntry p.cursor.step)

/-- Reads the question mark of a key. -/
def readKey (p : Progress) : Except Fault Progress := do
  let p ← p.beginAt .blockMappingStart
  let p ← (p.allowKey (!p.inFlow)).giveUpKey
  .ok (p.emit .key p.cursor.step)

/-- Puts the symbol of a key at the place where it began, with the start of its
block if it is the first of one. -/
def insertKey (p : Progress) (place : KeyPlace) : Progress :=
  let behind := p.count - place.symbols
  let after := p.symbols.take behind
  let before := p.symbols.drop behind
  if !p.inFlow && p.indent < place.column then
    { p with
      symbols := after ++ .key :: .blockMappingStart :: before
      count := p.count + 2
      indent := place.column
      outerIndents := p.indent :: p.outerIndents }
  else
    { p with symbols := after ++ .key :: before, count := p.count + 1 }

/-- Reads the colon of a value. -/
def readValue (p : Progress) : Except Fault Progress :=
  match p.keyPlace? with
  | some place =>
      let p := (p.dropKeyPlace.insertKey place).allowKey false
      .ok (p.emit .value p.cursor.step)
  | none => do
      let p ← p.beginAt .blockMappingStart
      let p ← (p.allowKey (!p.inFlow)).giveUpKey
      .ok (p.emit .value p.cursor.step)

/-- Reads an anchor or an alias. -/
def readName (p : Progress) (symbol : String → Symbol) : Except Fault Progress := do
  let p ← p.markKey
  let (name, c) ← anchorName p.cursor.step
  .ok ((p.allowKey false).emit (symbol name) c)

def readTag (p : Progress) : Except Fault Progress := do
  let p ← p.markKey
  let (symbol, c) ← tagSymbol p.cursor
  .ok ((p.allowKey false).emit symbol c)

def readDirective (p : Progress) : Except Fault Progress := do
  let p ← (p.unindent (-1)).giveUpKey
  let (symbol, c) ← directiveSymbol p.cursor
  .ok ((p.allowKey false).emit symbol c)

def readBlockScalar (p : Progress) (folded : Bool) : Except Fault Progress := do
  let p ← (p.allowKey true).giveUpKey
  let (text, c) ← blockScalar folded p.indent p.cursor.step
  .ok (p.emit (.scalar (Codes.ofChars text) false) c)

def readQuoted (p : Progress) (double : Bool) : Except Fault Progress := do
  let p ← p.markKey
  let (text, c) ← quotedScalar double p.cursor.step
  .ok ((p.allowKey false).emit (.scalar text false) c)

def readPlain (p : Progress) : Except Fault Progress := do
  let p ← p.markKey
  let ((text, broken), c) := plainScalar p.inFlow p.indent p.cursor
  .ok ((p.allowKey broken).emit (.scalar (Codes.ofChars text) true) c)

/-- Whether a plain scalar may begin with a character, given the one after it. -/
def beginsPlain (p : Progress) (ch : Char) (next : Option Char) : Bool :=
  if ch == '-' then !atWordEnd next
  else if ch == '?' || ch == ':' then !p.inFlow && !atWordEnd next
  else !(",[]\x7b\x7d#&*!|>'\"%@".toList.contains ch || ch.toNat == 0x60 || atWordEnd (some ch))

/-- Reads the symbol that begins with a character at the cursor. -/
def readSymbol (p : Progress) (ch : Char) : Except Fault Progress :=
  let next := p.cursor.peekAt 1
  let atStart := p.cursor.column == 0
  if ch == '%' && atStart then p.readDirective
  else if ch == '-' && atStart && p.cursor.atSeparator then p.separator .documentStart
  else if ch == '.' && atStart && p.cursor.atSeparator then p.separator .documentEnd
  else if ch == '[' then p.openBracket .flowSequenceStart
  else if ch == '{' then p.openBracket .flowMappingStart
  else if ch == ']' then p.closeBracket .flowSequenceEnd
  else if ch == '}' then p.closeBracket .flowMappingEnd
  else if ch == ',' then do
    let p ← (p.allowKey true).giveUpKey
    .ok (p.emit .flowEntry p.cursor.step)
  else if ch == '-' && atWordEnd next then p.readBlockEntry
  else if ch == '?' && (p.inFlow || atWordEnd next) then p.readKey
  else if ch == ':' && (p.inFlow || atWordEnd next) then p.readValue
  else if ch == '*' then p.readName .alias
  else if ch == '&' then p.readName .anchor
  else if ch == '!' then p.readTag
  else if ch == '|' && !p.inFlow then p.readBlockScalar false
  else if ch == '>' && !p.inFlow then p.readBlockScalar true
  else if ch == '\'' then p.readQuoted false
  else if ch == '"' then p.readQuoted true
  else if p.beginsPlain ch next then p.readPlain
  else .error .malformed

/-- Reads the next symbol with the blanks before it, and tells whether there is
one; at the end of the text all blocks end. -/
def readNext (p : Progress) : Except Fault (Bool × Progress) := do
  let p ← (p.skipBlanks (p.cursor.size + 1)).giveUpStaleKeys
  let p := p.unindent p.cursor.column
  match p.cursor.peek with
  | none => do
      let p ← (p.unindent (-1)).giveUpKey
      .ok (false, p)
  | some ch => do
      let p ← p.readSymbol ch
      .ok (true, p)

/-- The symbols before every place at which a key may still have begun. -/
def certain (p : Progress) : List Symbol :=
  let places := p.keyPlaces.filter fun entry => !p.isStale entry.2
  p.symbols.reverse.take
    (places.foldl (fun least entry => min least entry.2.symbols) p.count)

end Progress

/-- The symbols of a text, and the fault that comes after them, if there is one. -/
structure SymbolStream where
  symbols : List Symbol
  fault : Option Fault

/-- Reads the rest of a text. -/
def Progress.readAll (p : Progress) : Nat → SymbolStream
  | 0 => ⟨p.certain, some .malformed⟩
  | symbols + 1 =>
      match p.readNext with
      | .error fault => ⟨p.certain, some fault⟩
      | .ok (false, p) => ⟨p.symbols.reverse, none⟩
      | .ok (true, p) => p.readAll symbols

/-- The symbols of a text. A byte order mark at its start is skipped. -/
def symbolsOf (text : List Char) : SymbolStream :=
  if text.all isAllowed then
    let start := Progress.start text
    let start :=
      if start.cursor.peek == some byteOrderMark then { start with cursor := start.cursor.step }
      else start
    start.readAll (text.length + 1)
  else
    ⟨[], some .malformed⟩

end Yaml

end DateRules
