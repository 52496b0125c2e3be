import DateRules.Data.Value
import DateRules.Text.Blank
import DateRules.Text.DecimalDigit
import DateRules.Text.Lowercase
import DateRules.Text.Quoted
import DateRules.Yaml.Cursor

/-!
# The meaning of scalars

Tags name kinds of values. A plain scalar has a tag by its form; the forms are
those of version 1.1 of the format, in which a number may have underscores, a
leading zero means octal, and digits after colons are in base 60. A line feed at
the end does not matter for the form.

The functions `integer`, `real`, `time` and the like give the value that a
scalar of some kind has, or the fault if it is not written as one. They accept
more than the forms: a tag may be given to any scalar.
-/

namespace DateRules

namespace Yaml

open Text (Codes)

/-- The kinds of values that a tag can name. -/
inductive Tag where
  | str
  | int
  | float
  | bool
  | null
  | timestamp
  | binary
  | seq
  | map
  | set
  | pairs
  /-- The key whose value is a map to be merged into the map at hand. -/
  | merge
  /-- The key whose value stands for the map at hand. -/
  | value
  | unknown
deriving DecidableEq, Repr

/-- What the tags of the format begin with. -/
def tagDomain : String := "tag:yaml.org,2002:"

/-- The kind that a full tag names. -/
def Tag.ofText (text : String) : Tag :=
  let known : List (String × Tag) :=
    [("str", .str), ("int", .int), ("float", .float), ("bool", .bool), ("null", .null),
      ("timestamp", .timestamp), ("binary", .binary), ("seq", .seq), ("map", .map),
      ("set", .set), ("omap", .pairs), ("pairs", .pairs), ("merge", .merge),
      ("value", .value)]
  match known.find? fun entry => tagDomain ++ entry.1 == text with
  | some entry => entry.2
  | none => .unknown

/-! ## Forms of plain scalars -/

def isDigitOrMark (c : Char) : Bool := c.isDigit || c == '_'

/-- A text without one sign at its front. -/
def dropSign : List Char → List Char
  | '+' :: cs => cs
  | '-' :: cs => cs
  | cs => cs

def isBoolForm (text : String) : Bool :=
  text ∈ ["yes", "Yes", "YES", "no", "No", "NO", "true", "True", "TRUE", "false", "False",
    "FALSE", "on", "On", "ON", "off", "Off", "OFF"]

def isNullForm (text : String) : Bool := text ∈ ["", "~", "null", "Null", "NULL"]

/-- Whether characters are one or more groups of a colon and a number below 60. -/
def isSixtiesForm : List Char → Bool
  | [':', a] => a.isDigit
  | ':' :: a :: ':' :: rest => a.isDigit && isSixtiesForm (':' :: rest)
  | ':' :: a :: b :: rest =>
      '0' ≤ a && a ≤ '5' && b.isDigit && (rest.isEmpty || isSixtiesForm rest)
  | _ => false

/-- Whether characters are an exponent with its sign, or nothing. -/
def isExponentForm : List Char → Bool
  | [] => true
  | e :: sign :: digits =>
      (e == 'e' || e == 'E') && (sign == '+' || sign == '-') && !digits.isEmpty &&
        digits.all Char.isDigit
  | _ => false

/-- Whether characters are a whole part, a point and what may follow it. -/
def isPointForm (cs : List Char) : Bool :=
  match cs with
  | first :: _ =>
      let whole := cs.takeWhile isDigitOrMark
      match cs.drop whole.length with
      | '.' :: fraction => first.isDigit && isExponentForm (fraction.dropWhile isDigitOrMark)
      | _ => false
  | [] => false

/-- Whether characters are a number in base 60 with a point. -/
def isSixtiesPointForm (cs : List Char) : Bool :=
  match cs with
  | first :: _ =>
      let whole := cs.takeWhile isDigitOrMark
      let sixties := (cs.drop whole.length).takeWhile (· != '.')
      match cs.drop (whole.length + sixties.length) with
      | '.' :: fraction => first.isDigit && isSixtiesForm sixties && fraction.all isDigitOrMark
      | _ => false
  | [] => false

def isFloatForm (text : String) : Bool :=
  let cs := text.toList
  let unsigned := dropSign cs
  isPointForm unsigned ||
    (match cs with
      | '.' :: d :: rest => d.isDigit && isExponentForm (rest.dropWhile isDigitOrMark)
      | _ => false) ||
    isSixtiesPointForm unsigned ||
    String.ofList unsigned ∈ [".inf", ".Inf", ".INF"] || text ∈ [".nan", ".NaN", ".NAN"]

def isOctalOrMark (c : Char) : Bool := ('0' ≤ c && c ≤ '7') || c == '_'

def isHexOrMark (c : Char) : Bool := (hexValue? c).isSome || c == '_'

def isIntForm (text : String) : Bool :=
  match dropSign text.toList with
  | ['0'] => true
  | '0' :: 'b' :: d :: ds => (d :: ds).all fun c => c == '0' || c == '1' || c == '_'
  | '0' :: 'x' :: d :: ds => (d :: ds).all isHexOrMark
  | '0' :: d :: ds => (d :: ds).all isOctalOrMark
  | d :: ds =>
      let sixties := ds.dropWhile isDigitOrMark
      d.isDigit && d != '0' && (sixties.isEmpty || isSixtiesForm sixties)
  | [] => false

/-- The parts of a date and time, as text. -/
structure TimeParts where
  year : List Char
  month : List Char
  day : List Char
  hour : List Char
  minute : List Char
  second : List Char
  fraction : List Char
  /-- The sign, the hours and the minutes of the offset, or a Z alone. -/
  zone : Option (Char × List Char × List Char)

/-- A run of at least `least` and at most `most` digits, and the rest. -/
def takeDigits (least most : Nat) (cs : List Char) : Option (List Char × List Char) :=
  let digits := (cs.take most).takeWhile Char.isDigit
  if least ≤ digits.length then some (digits, cs.drop digits.length) else none

/-- What follows a character. -/
def takeChar (c : Char) : List Char → Option (List Char)
  | d :: cs => if c == d then some cs else none
  | [] => none

/-- The zone of a time, if the characters are one or nothing. -/
def timeZone? (cs : List Char) : Option (Option (Char × List Char × List Char)) :=
  match cs.dropWhile fun c => c == ' ' || c == '\t' with
  | [] => if cs.isEmpty then some none else none
  | ['Z'] => some (some ('Z', [], []))
  | sign :: rest =>
      if sign == '+' || sign == '-' then do
        let (hours, rest) ← takeDigits 1 2 rest
        match rest with
        | [] => some (some (sign, hours, []))
        | ':' :: rest => do
            let (minutes, rest) ← takeDigits 2 2 rest
            if rest.isEmpty then some (some (sign, hours, minutes)) else none
        | _ => none
      else
        none

/-- The parts of a time of day after a date. -/
def timeOfDay? (year month day cs : List Char) : Option TimeParts := do
  let (hour, cs) ← takeDigits 1 2 cs
  let cs ← takeChar ':' cs
  let (minute, cs) ← takeDigits 2 2 cs
  let cs ← takeChar ':' cs
  let (second, cs) ← takeDigits 2 2 cs
  let (fraction, cs) :=
    match cs with
    | '.' :: cs => (cs.takeWhile Char.isDigit, cs.dropWhile Char.isDigit)
    | cs => ([], cs)
  let zone ← timeZone? cs
  some ⟨year, month, day, hour, minute, second, fraction, zone⟩

/-- The parts of a date, or of a date and a time of day after a T or blanks. -/
def timeParts? (cs : List Char) : Option TimeParts := do
  let (year, cs) ← takeDigits 4 4 cs
  let cs ← takeChar '-' cs
  let (month, cs) ← takeDigits 1 2 cs
  let cs ← takeChar '-' cs
  let (day, cs) ← takeDigits 1 2 cs
  match cs with
  | [] => some ⟨year, month, day, [], [], [], [], none⟩
  | c :: after =>
      if c == 'T' || c == 't' then timeOfDay? year month day after
      else if c == ' ' || c == '\t' then
        timeOfDay? year month day (after.dropWhile fun c => c == ' ' || c == '\t')
      else none

/-- Whether a text is a date in full width, or a date with a time of day. -/
def isTimestampForm (text : String) : Bool :=
  match timeParts? text.toList with
  | some parts => !parts.hour.isEmpty || (parts.month.length == 2 && parts.day.length == 2)
  | none => false

/-- The characters of a scalar that matter for its form: all but a line feed at
the end of others. -/
def formChars (cs : List Char) : List Char :=
  if 1 < cs.length && cs.getLast? == some '\n' then cs.dropLast else cs

/-- The tag of a plain scalar. Indicators of other symbols name no kind of
values. -/
def Tag.ofPlain (codes : Codes) : Tag :=
  let text := String.ofList (formChars codes.toChars)
  if isBoolForm text then .bool
  else if isFloatForm text then .float
  else if isIntForm text then .int
  else if text == "<<" then .merge
  else if isNullForm text then .null
  else if isTimestampForm text then .timestamp
  else if text == "=" then .value
  else if text ∈ ["!", "&", "*"] then .unknown
  else .str

/-! ## Numbers -/

/-- The value of a digit, also of a letter, that is less than a base. -/
def digitValue? (base : Nat) (c : Char) : Option Nat :=
  let value :=
    if '0' ≤ c && c ≤ '9' then some (c.toNat - '0'.toNat)
    else if 'a' ≤ c && c ≤ 'z' then some (c.toNat - 'a'.toNat + 10)
    else if 'A' ≤ c && c ≤ 'Z' then some (c.toNat - 'A'.toNat + 10)
    else none
  value.filter (· < base)

/-- The number that digits of a base write. -/
def digitsNumber? (base : Nat) (digits : List Char) : Option Nat :=
  if digits.isEmpty then none
  else digits.foldl (fun n c => do return base * (← n) + (← digitValue? base c)) (some 0)

/-- The letter after a zero that announces a base. -/
def baseLetter? : Nat → Option Char
  | 2 => some 'b'
  | 8 => some 'o'
  | 16 => some 'x'
  | _ => none

/-- Digits without the announcement of their base. -/
def dropBaseLetter (base : Nat) (digits : List Char) : List Char :=
  match digits with
  | '0' :: letter :: rest => if baseLetter? base == some letter.toLower then rest else digits
  | _ => digits

/-- The character that a code counts as in a number: the digits of all scripts
count as those of ASCII, and white space outside ASCII as a space. Other
characters outside ASCII count as none. -/
def numeralChar? (code : Nat) : Option Char :=
  if code < 0x7f then some (Char.ofNat code)
  else
    match Text.charOfCode? code with
    | none => none
    | some c =>
        if Text.isBlank c then some ' '
        else (Text.decimalDigit? code).map fun value => Char.ofNat ('0'.toNat + value)

/-- The character in place of one that no number has. -/
def noNumeral : Char := '?'

/-- A text as the characters that it counts as in a number. -/
def numeral (codes : Codes) : List Char :=
  codes.map fun code => (numeralChar? code).getD noNumeral

/-- Whether a character may surround a number. -/
def surroundsNumber (c : Char) : Bool :=
  c == ' ' || (0x09 ≤ c.toNat && c.toNat ≤ 0x0d)

def trimNumber (cs : List Char) : List Char :=
  ((cs.dropWhile surroundsNumber).reverse.dropWhile surroundsNumber).reverse

/-- The greatest number of decimal digits of an integer. -/
def maxIntegerDigits : Nat := 4300

/-- How much of a text is shown that should be an integer. -/
def maxShownText : Nat := 200

/-- The integer that a text writes in a base, with blanks around it and a sign. -/
def basedInteger (base : Nat) (text : Codes) : Except Fault Int :=
  let trimmed := trimNumber (numeral text)
  let digits := dropSign trimmed
  if base == 10 && maxIntegerDigits < (digits.takeWhile Char.isDigit).length then
    .error .overlong
  else
    match digitsNumber? base (dropBaseLetter base digits) with
    | some n => .ok (if trimmed.head? == some '-' then -(n : Int) else n)
    | none =>
        let shown := (Text.quotedCodes text).toList.take maxShownText
        .error (.invalid ("invalid literal for int() with base " ++ toString base ++ ": " ++
          String.ofList shown))

/-- A text without underscores. -/
def dropMarks (codes : Codes) : Codes := codes.filter (· != '_'.toNat)

/-- A text without one sign at its front, and whether that is a minus sign. -/
def splitSign : Codes → Bool × Codes
  | [] => (false, [])
  | code :: rest =>
      if code == '-'.toNat then (true, rest)
      else if code == '+'.toNat then (false, rest)
      else (false, code :: rest)

/-- The parts of a text between colons. -/
def colonParts (codes : Codes) : List Codes :=
  codes.foldr
    (fun code parts =>
      match parts with
      | part :: others => if code == ':'.toNat then [] :: parts else (code :: part) :: others
      | [] => [[code]])
    [[]]

/-- Parts in base 60, the first of which counts most. -/
def sixties (parts : List Int) : Int := parts.foldl (fun sum part => 60 * sum + part) 0

/-- The integer that a scalar writes. -/
def integer (text : Codes) : Except Fault Int := do
  let (negative, unsigned) := splitSign (dropMarks text)
  let value ←
    match unsigned.map (fun code => (Text.charOfCode? code).getD noNumeral) with
    | [] => .error .noNumber
    | ['0'] => .ok 0
    | '0' :: 'b' :: _ => basedInteger 2 (unsigned.drop 2)
    | '0' :: 'x' :: _ => basedInteger 16 (unsigned.drop 2)
    | '0' :: _ => basedInteger 8 unsigned
    | chars =>
        if chars.contains ':' then do
          let parts ← (colonParts unsigned).mapM (basedInteger 10)
          .ok (sixties parts)
        else
          basedInteger 10 unsigned
  .ok (if negative then -value else value)

/-- The exponent that characters write after a number, if they write one. -/
def exponent? : List Char → Option Int
  | [] => some 0
  | e :: cs =>
      if e == 'e' || e == 'E' then
        (digitsNumber? 10 (dropSign cs)).map fun n =>
          if cs.head? == some '-' then -(n : Int) else n
      else
        none

/-- The double that digits with a point and an exponent write. -/
def pointFloat? (cs : List Char) : Option Float :=
  let whole := cs.takeWhile Char.isDigit
  let (fraction, rest) :=
    match cs.drop whole.length with
    | '.' :: rest => rest.span Char.isDigit
    | rest => ([], rest)
  if whole.isEmpty && fraction.isEmpty then none
  else
    (exponent? rest).map fun exponent =>
      floatOfDecimal (Nat.ofDigitChars 10 (whole ++ fraction) 0) (exponent - fraction.length)

/-- The double that a decimal writes, with blanks around it and a sign, or one
of the words for infinity and for no number. -/
def decimalFloat (text : Codes) : Except Fault Float :=
  let trimmed := trimNumber (numeral text)
  let unsigned := dropSign trimmed
  let word := String.ofList (unsigned.map Char.toLower)
  let magnitude? :=
    if word ∈ ["inf", "infinity"] then some (1.0 / 0.0)
    else if word == "nan" then some (0.0 / 0.0)
    else pointFloat? unsigned
  match magnitude? with
  | some magnitude => .ok (if trimmed.head? == some '-' then -magnitude else magnitude)
  | none =>
      .error (.invalid ("could not convert string to float: " ++ Text.quotedCodes text))

/-- The sum of parts in base 60, the last of which counts as it is and comes
first. Each unit must be in the range of doubles. -/
def sixtiesFloat (sum : Float) (unit : Nat) : List Float → Except Fault Float
  | [] => .ok sum
  | part :: parts =>
      if bitsOfFraction unit 1 < infinityBits then
        sixtiesFloat (sum + part * floatOfNat unit) (60 * unit) parts
      else
        .error .overflow

/-- The double that a scalar writes. -/
def real (text : Codes) : Except Fault Float := do
  let codes := Text.Codes.lower (dropMarks text)
  let (negative, unsigned) := splitSign codes
  let value ←
    if codes.isEmpty then .error .noNumber
    else if unsigned == Codes.ofString ".inf" then .ok (1.0 / 0.0)
    else if unsigned == Codes.ofString ".nan" then .ok (0.0 / 0.0)
    else if unsigned.contains ':'.toNat then do
      let parts ← (colonParts unsigned).mapM decimalFloat
      sixtiesFloat 0.0 1 parts.reverse
    else
      decimalFloat unsigned
  .ok (if negative then -value else value)

/-- Whether a scalar is the word for no number. All such scalars are the same
key of a map, as no other numbers that are none. -/
def isNoNumberWord (text : Codes) : Bool :=
  (splitSign (Text.Codes.lower (dropMarks text))).2 == Codes.ofString ".nan"

/-! ## Other values -/

/-- The truth value that a scalar writes. -/
def truth (text : Codes) : Except Fault Bool :=
  let word := (Text.Codes.lower text).replaced
  if word ∈ ["yes", "true", "on"] then .ok true
  else if word ∈ ["no", "false", "off"] then .ok false
  else .error (.noTruth word)

/-- The date of a year, a month and a day. -/
def dateOf (year month day : Nat) : Except Fault Date :=
  match Date.ofParts? year month day with
  | some d => .ok d
  | none =>
      if year < 1 || 9999 < year then
        .error (.invalid ("year " ++ toString year ++ " is out of range"))
      else if month < 1 || 12 < month then
        .error (.invalid "month must be in 1..12")
      else
        .error (.invalid "day is out of range for month")

/-- The text of an offset of whole minutes. -/
def minutesText (minutes : Int) : String :=
  let days := minutes / 1440
  let seconds := minutes % 1440 * 60
  let parts := (if days != 0 then ["days=" ++ toString days] else []) ++
    (if seconds != 0 then ["seconds=" ++ toString seconds] else [])
  "datetime.timedelta(" ++ (if parts.isEmpty then "0" else ", ".intercalate parts) ++ ")"

/-- The offset of a zone in seconds. It must be less than a day. -/
def zoneOffset (zone : Char × List Char × List Char) : Except Fault Int :=
  let number := fun (digits : List Char) => (Nat.ofDigitChars 10 digits 0 : Int)
  let minutes := 60 * number zone.2.1 + number zone.2.2
  let signed := if zone.1 == '-' then -minutes else minutes
  if signed.natAbs < 1440 then
    .ok (60 * signed)
  else
    .error (.invalid ("offset must be a timedelta strictly between " ++
      "-timedelta(hours=24) and timedelta(hours=24), not " ++
      minutesText signed ++ "."))

/-- The date, or the date and time of day, that a scalar writes. -/
def time (text : Codes) : Except Fault Value :=
  match timeParts? (formChars text.toChars) with
  | none => .error .noTime
  | some parts => do
      let number := fun (digits : List Char) => Nat.ofDigitChars 10 digits 0
      if parts.hour.isEmpty then
        return .date (← dateOf (number parts.year) (number parts.month) (number parts.day))
      let offset ← parts.zone.mapM zoneOffset
      let date ← dateOf (number parts.year) (number parts.month) (number parts.day)
      if 23 < number parts.hour then throw (.invalid "hour must be in 0..23")
      if 59 < number parts.minute then throw (.invalid "minute must be in 0..59")
      if 59 < number parts.second then throw (.invalid "second must be in 0..59")
      let fraction := parts.fraction.take 6
      return .moment
        { date := date
          second := 3600 * number parts.hour + 60 * number parts.minute + number parts.second
          microsecond := number fraction * Nat.pow 10 (6 - fraction.length)
          offset := offset }

/-- The value of a character of base 64. -/
def base64Value? (c : Char) : Option Nat :=
  if 'A' ≤ c && c ≤ 'Z' then some (c.toNat - 'A'.toNat)
  else if 'a' ≤ c && c ≤ 'z' then some (c.toNat - 'a'.toNat + 26)
  else if '0' ≤ c && c ≤ '9' then some (c.toNat - '0'.toNat + 52)
  else if c == '+' then some 62
  else if c == '/' then some 63
  else none

/-- Where reading base 64 stands: in which place of a group of four, with how
many bits left over from the places before, and after how many signs of
equality. The bytes are those read so far, the last one first. -/
structure Base64State where
  place : Nat
  bits : Nat
  fill : Nat
  bytes : List UInt8

/-- The state after one more value. -/
def Base64State.add (s : Base64State) (value : Nat) : Base64State :=
  match s.place with
  | 0 => ⟨1, value, 0, s.bytes⟩
  | 1 => ⟨2, value % 16, 0, (4 * s.bits + value / 16).toUInt8 :: s.bytes⟩
  | 2 => ⟨3, value % 4, 0, (16 * s.bits + value / 4).toUInt8 :: s.bytes⟩
  | _ => ⟨0, 0, 0, (64 * s.bits + value).toUInt8 :: s.bytes⟩

/-- The bytes that characters write in base 64. A group of which at least two
places are taken ends the text when signs of equality fill up the others; all
other characters are skipped. -/
def base64Bytes (s : Base64State) : List Char → Option (List UInt8)
  | [] => if s.place = 0 then some s.bytes.reverse else none
  | c :: cs =>
      if c == '=' then
        if s.place < 2 then base64Bytes s cs
        else if 4 ≤ s.place + (s.fill + 1) then some s.bytes.reverse
        else base64Bytes { s with fill := s.fill + 1 } cs
      else
        match base64Value? c with
        | some value => base64Bytes (s.add value) cs
        | none => base64Bytes s cs

/-- The bytes that a scalar writes in base 64. It must be ASCII. -/
def binary (text : Codes) : Except Fault (List UInt8) :=
  if text.all (· < 128) then
    match base64Bytes ⟨0, 0, 0, []⟩ text.toChars with
    | some bytes => .ok bytes
    | none => .error .malformed
  else
    .error .malformed

end Yaml

end DateRules
