import DateRules.Calendar.Date
import DateRules.Decimal.Shortest
import DateRules.Text.Codes

/-!
# Data

The values that a document can hold, before anything is known about their
meaning. A map keeps its entries in the order of the document.
-/

namespace DateRules

/-- A date with a time of day. The offset from universal time is in seconds. -/
structure Moment where
  date : Date
  second : Nat
  microsecond : Nat
  offset : Option Int
deriving DecidableEq, Repr

namespace Moment

/-- The microseconds on the clock of the moment since the day before the first
date. -/
def clock (m : Moment) : Int := (86400 * m.date.ordinal + m.second) * 1000000 + m.microsecond

/-- The moment in universal time, in microseconds, if its offset is known. -/
def instant? (m : Moment) : Option Int :=
  m.offset.map fun seconds => m.clock - 1000000 * seconds

/-- Whether two moments are the same: in universal time if both offsets are
known, and on the clock if neither is. -/
def same (m n : Moment) : Bool :=
  m.instant? == n.instant? && (m.offset.isSome || m.clock == n.clock)

end Moment

/-- A value of a document. -/
inductive Value where
  | null
  | bool (value : Bool)
  | int (value : Int)
  | float (value : Float)
  | text (value : String)
  /-- A text with a code that belongs to no character. -/
  | brokenText (codes : Text.Codes)
  | bytes (value : List UInt8)
  | date (value : Date)
  | moment (value : Moment)
  | list (items : List Value)
  | set (members : List Value)
  | map (entries : List (Value × Value))

namespace Value

/-- The text with the given codes. -/
def ofCodes (codes : Text.Codes) : Value :=
  match codes.toString? with
  | some value => text value
  | none => brokenText codes

/-- The word that messages use for the kind of a value. -/
def kindName : Value → String
  | null => "NoneType"
  | bool _ => "bool"
  | int _ => "int"
  | float _ => "float"
  | text _ => "str"
  | brokenText _ => "str"
  | bytes _ => "bytes"
  | date _ => "date"
  | moment _ => "datetime"
  | list _ => "list"
  | set _ => "set"
  | map _ => "dict"

/-- The whole number that a value counts as when keys are compared: truth
values count as 0 and 1, and a double as the whole number that it is. -/
def wholeNumber? : Value → Option Int
  | bool b => some (if b then 1 else 0)
  | int n => some n
  | float x => (FloatValue.ofFloat x).toInt?
  | _ => none

/-- Whether two values are the same key of a map. -/
def sameKey (a b : Value) : Bool :=
  match a.wholeNumber?, b.wholeNumber? with
  | some m, some n => m == n
  | none, none =>
      match a, b with
      | null, null => true
      | float x, float y => x == y
      | text s, text t => s == t
      | brokenText s, brokenText t => s == t
      | bytes s, bytes t => s == t
      | date d, date e => d == e
      | moment s, moment t => s.same t
      | _, _ => false
  | _, _ => false

/-- The value under a name. -/
def field? (entries : List (Value × Value)) (name : String) : Option Value :=
  entries.findSome? fun entry =>
    match entry.1 with
    | text key => if key = name then some entry.2 else none
    | _ => none

end Value

end DateRules
