import DateRules.Calendar.Year

/-!
# Dates

A `Date` is a day of the proleptic Gregorian calendar from 0001-01-01 to
9999-12-31; only such days can be built. `Date.ordinal` numbers the days from 1
to `lastOrdinal`, and `Date.ofOrdinal` goes back and keeps the number, as
`ordinal_ofOrdinal` says.

A day number outside that range has no date; `RangeError` tells how it fails.
-/

namespace DateRules

open Calendar

/-- A day of the proleptic Gregorian calendar in the years 1 to 9999. -/
structure Date where
  year : Nat
  month : Nat
  day : Nat
  year_mem : 1 ≤ year ∧ year ≤ 9999
  month_mem : 1 ≤ month ∧ month ≤ 12
  day_mem : 1 ≤ day ∧ day ≤ monthLength (isLeapYear year) month
deriving DecidableEq, Repr

/-- The ways in which a computation leaves the range of dates. -/
inductive RangeError where
  /-- The day number is not positive. -/
  | beforeFirstDay
  /-- The day number is that of a day in a year after 9999. -/
  | yearOutOfRange (year : Nat)
  /-- The day number has no 32-bit form, or a step from a date leaves the range. -/
  | overflow
deriving DecidableEq, Repr

namespace RangeError

def message : RangeError → String
  | beforeFirstDay => "ordinal must be >= 1"
  | yearOutOfRange year => "year " ++ toString year ++ " is out of range"
  | overflow => "date value out of range"

end RangeError

/-- The number of the last day, 9999-12-31. -/
def lastOrdinal : Nat := 3652059

theorem lastOrdinal_eq : lastOrdinal = 3652059 := rfl

namespace Date

/-- Whether the date lies in a leap year. -/
def isLeap (d : Date) : Bool := isLeapYear d.year

/-- The day of a year, a month and a day of the month, if there is one. -/
def ofParts? (year month day : Nat) : Option Date :=
  if h : (1 ≤ year ∧ year ≤ 9999) ∧ (1 ≤ month ∧ month ≤ 12) ∧
      (1 ≤ day ∧ day ≤ monthLength (isLeapYear year) month) then
    some ⟨year, month, day, h.1, h.2.1, h.2.2⟩
  else
    none

/-- The position of the date within its year, from 1. -/
def dayOfYear (d : Date) : Nat := daysBeforeMonth d.isLeap d.month + d.day

/-- The number of the day, with 0001-01-01 as day 1. -/
def ordinal (d : Date) : Nat := daysInYears (d.year - 1) + d.dayOfYear

theorem dayOfYear_mem (d : Date) : 1 ≤ d.dayOfYear ∧ d.dayOfYear ≤ yearLength d.isLeap := by
  obtain ⟨year, month, day, hy, hm, hd⟩ := d
  simp only [dayOfYear, isLeap]
  refine ⟨by omega, ?_⟩
  have hle : daysBeforeMonth (isLeapYear year) (month + 1) ≤
      yearLength (isLeapYear year) := by
    rw [← daysBeforeMonth_thirteen]
    exact daysBeforeMonth_le _ (by omega)
  rw [daysBeforeMonth_succ _ hm.1] at hle
  omega

theorem ordinal_bounds (d : Date) :
    daysInYears (d.year - 1) < d.ordinal ∧ d.ordinal ≤ daysInYears d.year := by
  have hmem := d.dayOfYear_mem
  have hyear := daysInYears_succ (d.year - 1)
  rw [Nat.sub_add_cancel d.year_mem.1] at hyear
  simp only [ordinal, isLeap] at *
  omega

theorem ordinal_mem (d : Date) : 1 ≤ d.ordinal ∧ d.ordinal ≤ lastOrdinal := by
  have hbounds := d.ordinal_bounds
  have hmono : daysInYears d.year ≤ daysInYears 9999 := daysInYears_le d.year_mem.2
  have hlast : daysInYears 9999 = lastOrdinal := rfl
  omega

/-- The date with a given day number. -/
def ofOrdinal (n : Nat) (h : 1 ≤ n ∧ n ≤ lastOrdinal) : Date where
  year := yearOf n
  month := monthOf (isLeapYear (yearOf n)) (dayInYear n)
  day := dayInMonth (isLeapYear (yearOf n)) (dayInYear n)
  year_mem := ⟨(yearOf_bounds h.1).1, yearOf_le h.2⟩
  month_mem := monthOf_mem _ _
  day_mem := dayInMonth_mem _ (dayInYear_mem h.1).1 (dayInYear_mem h.1).2

theorem ordinal_ofOrdinal {n : Nat} (h : 1 ≤ n ∧ n ≤ lastOrdinal) :
    (ofOrdinal n h).ordinal = n := by
  simp only [ordinal, dayOfYear, isLeap, ofOrdinal]
  rw [daysBeforeMonth_add_dayInMonth _ (dayInYear_mem h.1).1 (dayInYear_mem h.1).2,
    daysInYears_add_dayInYear h.1]

/-- The date with a given day number, or why there is none. -/
def ofOrdinal? (n : Int) : Except RangeError Date :=
  if n < -2147483648 ∨ 2147483648 ≤ n then
    .error .overflow
  else if h : 1 ≤ n.toNat ∧ n.toNat ≤ lastOrdinal then
    .ok (ofOrdinal n.toNat h)
  else if n < 1 then
    .error .beforeFirstDay
  else
    .error (.yearOutOfRange (yearOf n.toNat))

theorem ofOrdinal?_eq_ok {n : Int} (h : 1 ≤ n ∧ n ≤ lastOrdinal) :
    ∃ d, ofOrdinal? n = .ok d ∧ (d.ordinal : Int) = n := by
  have hn : 1 ≤ n.toNat ∧ n.toNat ≤ lastOrdinal := by omega
  refine ⟨ofOrdinal n.toNat hn, ?_, ?_⟩
  · have hsmall : ¬(n < -2147483648 ∨ 2147483648 ≤ n) := by
      have hlast := lastOrdinal_eq
      omega
    rw [ofOrdinal?, if_neg hsmall, dif_pos hn]
  · rw [ordinal_ofOrdinal]
    omega

/-- The date `k` days later, or earlier for negative `k`. -/
def shift (d : Date) (k : Int) : Except RangeError Date :=
  if h : 1 ≤ (d.ordinal + k).toNat ∧ (d.ordinal + k).toNat ≤ lastOrdinal then
    .ok (ofOrdinal (d.ordinal + k).toNat h)
  else
    .error .overflow

theorem shift_eq_ok {d : Date} {k : Int}
    (h : 1 ≤ d.ordinal + k ∧ d.ordinal + k ≤ lastOrdinal) :
    ∃ e, d.shift k = .ok e ∧ (e.ordinal : Int) = d.ordinal + k := by
  have hn : 1 ≤ (d.ordinal + k).toNat ∧ (d.ordinal + k).toNat ≤ lastOrdinal := by omega
  refine ⟨ofOrdinal _ hn, ?_, ?_⟩
  · rw [shift, dif_pos hn]
  · rw [ordinal_ofOrdinal]
    omega

/-- The last date. -/
def last : Date := ⟨9999, 12, 31, by decide, by decide, by decide⟩

theorem ordinal_last : last.ordinal = lastOrdinal := rfl

/-- A number in decimal, with leading zeros up to the given width. -/
def padded (width n : Nat) : String :=
  let digits := toString n
  String.ofList (List.replicate (width - digits.length) '0') ++ digits

/-- The text of a date: year, month and day in four, two and two digits. -/
def toText (d : Date) : String :=
  padded 4 d.year ++ "-" ++ padded 2 d.month ++ "-" ++ padded 2 d.day

end Date

end DateRules
