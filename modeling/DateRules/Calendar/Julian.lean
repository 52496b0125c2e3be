import DateRules.Calendar.Date

/-!
# The Julian calendar

`Julian.ordinal` gives the day number of a date of the Julian calendar, on the
same scale as `Date.ordinal`. It is plain arithmetic on all integers: a month
or a day outside its range counts on from the dates inside it.

`Julian.toDate` is the same day as a `Date`, where there is one.
`Date.modifiedJulianDay` is the linear day count with 1858-11-17 as day 0.
-/

namespace DateRules

namespace Julian

/-- The day number of a Julian date. The year is taken to begin in March, so
that the leap day is its last: the months from March on have lengths that add
up to the whole part of `(153 * m + 2) / 5`, and every fourth year has one day
more. -/
def ordinal (year month day : Int) : Int :=
  let carry := (14 - month) / 12
  let years := year + 4800 - carry
  let months := month + 12 * carry - 3
  let julianDay := day + (153 * months + 2) / 5 + 365 * years + years / 4 - 32083
  julianDay - 1721425

/-- The Gregorian date of a Julian date. -/
def toDate (year month day : Int) : Except RangeError Date :=
  Date.ofOrdinal? (ordinal year month day)

theorem ordinal_add_day (year month day k : Int) :
    ordinal year month (day + k) = ordinal year month day + k := by
  simp only [ordinal]
  omega

end Julian

/-- The number of the day before modified Julian day 1. -/
def modifiedJulianEpoch : Nat := 678576

/-- The days since 1858-11-17, negative before it. -/
def Date.modifiedJulianDay (d : Date) : Int := (d.ordinal : Int) - modifiedJulianEpoch

end DateRules
