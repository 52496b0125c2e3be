import DateRules.Calendar.Date

/-!
# Weeks

Weekdays, numbered from 1 for Monday to 7 for Sunday, and the occurrences of a
weekday within a month or a year: the first seven days hold the first
occurrence of each weekday, the next seven the second, and so on.
-/

namespace DateRules

/-- The days of the week. -/
inductive Weekday where
  | monday
  | tuesday
  | wednesday
  | thursday
  | friday
  | saturday
  | sunday
deriving DecidableEq, Repr

namespace Weekday

def all : List Weekday := [monday, tuesday, wednesday, thursday, friday, saturday, sunday]

/-- Monday is 1 and Sunday is 7. -/
def number : Weekday → Nat
  | monday => 1
  | tuesday => 2
  | wednesday => 3
  | thursday => 4
  | friday => 5
  | saturday => 6
  | sunday => 7

def name : Weekday → String
  | monday => "monday"
  | tuesday => "tuesday"
  | wednesday => "wednesday"
  | thursday => "thursday"
  | friday => "friday"
  | saturday => "saturday"
  | sunday => "sunday"

/-- The three-letter form of the name. -/
def abbreviation : Weekday → String
  | monday => "mon"
  | tuesday => "tue"
  | wednesday => "wed"
  | thursday => "thu"
  | friday => "fri"
  | saturday => "sat"
  | sunday => "sun"

end Weekday

namespace Calendar

/-- The number of the weekday of a day, by its day number. Day 1 is a Monday. -/
def weekdayOf (n : Int) : Int := (n - 1) % 7 + 1

theorem weekdayOf_mem (n : Int) : 1 ≤ weekdayOf n ∧ weekdayOf n ≤ 7 := by
  simp only [weekdayOf]
  omega

end Calendar

namespace Date

/-- The number of the date's weekday. -/
def weekday (d : Date) : Int := Calendar.weekdayOf d.ordinal

/-- Saturdays and Sundays are the weekend. -/
def isWeekend (d : Date) : Bool := d.weekday == 6 || d.weekday == 7

/-- Which occurrence of its weekday within the year the date is, from 1. -/
def yearCount (d : Date) : Nat := (d.dayOfYear - 1) / 7 + 1

/-- Which occurrence of its weekday within the month the date is, from 1. -/
def monthCount (d : Date) : Nat := (d.day - 1) / 7 + 1

theorem weekday_mem (d : Date) : 1 ≤ d.weekday ∧ d.weekday ≤ 7 :=
  Calendar.weekdayOf_mem d.ordinal

end Date

end DateRules
