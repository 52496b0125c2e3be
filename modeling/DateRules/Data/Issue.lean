import DateRules.Data.Value
import DateRules.Text.Quoted

/-!
# Issues of data

What is wrong with data that should describe something: each issue has a kind
and a location, the path of field names and list positions that leads to it.

A `Checked` value is either a value or all the issues that keep it from being
one. Its parts are checked side by side, so that no issue hides another.
-/

namespace DateRules

/-- The bound of whole numbers with a sign in 64 bits. -/
def wordBound : Int := (Nat.pow 2 63 : Nat)

/-- A step of the path to a part of some data. -/
inductive Place where
  | field (name : String)
  | index (position : Int)
deriving DecidableEq, Repr

namespace Place

/-- The text of an offset from universal time. -/
def offsetText (seconds : Int) : String :=
  if seconds == 0 then "datetime.timezone.utc"
  else
    let days := seconds / 86400
    let parts := (if days != 0 then ["days=" ++ toString days] else []) ++
      (if seconds % 86400 != 0 then ["seconds=" ++ toString (seconds % 86400)] else [])
    "datetime.timezone(datetime.timedelta(" ++ ", ".intercalate parts ++ "))"

/-- The text of a moment: its date, its hour and its minute, the seconds and
the microseconds as far as they are needed, and its offset. -/
def momentText (m : Moment) : String :=
  let second := m.second % 60
  let fine :=
    if m.microsecond != 0 then [toString second, toString m.microsecond]
    else if second != 0 then [toString second]
    else []
  let offset :=
    match m.offset with
    | some seconds => ["tzinfo=" ++ offsetText seconds]
    | none => []
  "datetime.datetime(" ++
    ", ".intercalate ([toString m.date.year, toString m.date.month, toString m.date.day,
      toString (m.second / 3600), toString (m.second / 60 % 60)] ++ fine ++ offset) ++ ")"

/-- The greatest number of digits of an integer that is shown. -/
def maxShownDigits : Nat := 4300

/-- The text of an integer, unless it has too many digits. -/
def integerText (n : Int) : String :=
  let digits := toString n.natAbs
  if maxShownDigits < digits.length then "<unprintable int object>"
  else if n < 0 then "-" ++ digits
  else digits

/-- A key of a map as a step of a path. -/
def ofKey : Value → Place
  | .text name => field name
  | .bool b => index (if b then 1 else 0)
  | .int n => if -wordBound ≤ n && n < wordBound then index n else field (integerText n)
  | .float x => field (floatText x)
  | .bytes data => field (Text.quotedBytes data)
  | .date d =>
      field ("datetime.date(" ++ toString d.year ++ ", " ++ toString d.month ++ ", " ++
        toString d.day ++ ")")
  | .moment m => field (momentText m)
  | .null => field "None"
  | other => field other.kindName

end Place

/-- The ways in which data can be wrong. -/
inductive IssueKind where
  | missing
  /-- The data is no map, where the named record is wanted. -/
  | notRecord (record : String)
  | notText
  | notUnicode
  | notList
  | notInteger
  | notIntegerText
  | integerTooLong
  | fractional
  | notFinite
  | notPositive
  | notChoice (choices : List String)
  | unknownField
  | nameNotText
  /-- A rule on the value of a field is broken. -/
  | invalid (reason : String)
deriving DecidableEq, Repr

namespace IssueKind

/-- The short name of a kind. -/
def code : IssueKind → String
  | missing => "missing"
  | notRecord _ => "model_type"
  | notText => "string_type"
  | notUnicode => "string_unicode"
  | notList => "list_type"
  | notInteger => "int_type"
  | notIntegerText => "int_parsing"
  | integerTooLong => "int_parsing_size"
  | fractional => "int_from_float"
  | notFinite => "finite_number"
  | notPositive => "greater_than"
  | notChoice _ => "enum"
  | unknownField => "extra_forbidden"
  | nameNotText => "invalid_key"
  | invalid _ => "value_error"

/-- Choices in quotes, with commas between them and "or" before the last. -/
def listChoices : List String → String
  | [] => ""
  | [a] => Text.quoted a
  | [a, b] => Text.quoted a ++ " or " ++ Text.quoted b
  | a :: rest => Text.quoted a ++ ", " ++ listChoices rest

def message : IssueKind → String
  | missing => "Field required"
  | notRecord record => "Input should be a valid dictionary or instance of " ++ record
  | notText => "Input should be a valid string"
  | notUnicode =>
      "Input should be a valid string, unable to parse raw data as a unicode string"
  | notList => "Input should be a valid list"
  | notInteger => "Input should be a valid integer"
  | notIntegerText =>
      "Input should be a valid integer, unable to parse string as an integer"
  | integerTooLong => "Unable to parse input string as an integer, exceeded maximum size"
  | fractional => "Input should be a valid integer, got a number with a fractional part"
  | notFinite => "Input should be a finite number"
  | notPositive => "Input should be greater than 0"
  | notChoice choices => "Input should be " ++ listChoices choices
  | unknownField => "Extra inputs are not permitted"
  | nameNotText => "Keys should be strings"
  | invalid reason => "Value error, " ++ reason

end IssueKind

/-- Something wrong at some location. -/
structure Issue where
  location : List Place
  kind : IssueKind
deriving DecidableEq, Repr

/-- The issue of the same kind, seen from one level up. -/
def Issue.under (place : Place) (issue : Issue) : Issue :=
  { issue with location := place :: issue.location }

/-- A value, or all issues that there are instead. -/
abbrev Checked (α : Type) := Except (List Issue) α

namespace Checked

variable {α β : Type}

/-- A single issue with the data itself. -/
def fail (kind : IssueKind) : Checked α := .error [⟨[], kind⟩]

/-- The same check, of data found at a place of some larger data. -/
def under (place : Place) : Checked α → Checked α
  | .ok a => .ok a
  | .error issues => .error (issues.map (Issue.under place))

/-- Two checks side by side. The issues of the first come first. -/
def both : Checked α → Checked β → Checked (α × β)
  | .ok a, .ok b => .ok (a, b)
  | .ok _, .error issues => .error issues
  | .error issues, .ok _ => .error issues
  | .error first, .error second => .error (first ++ second)

/-- A list of checks side by side. -/
def all : List (Checked α) → Checked (List α)
  | [] => .ok []
  | c :: cs =>
      match both c (all cs) with
      | .ok (a, as) => .ok (a :: as)
      | .error issues => .error issues

end Checked

end DateRules
