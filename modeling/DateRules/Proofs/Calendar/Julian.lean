import Mathlib.Order.Monotone.Basic
import Mathlib.Tactic.IntervalCases
import DateRules.Calendar.Julian
import DateRules.Proofs.Calendar.Window

/-!
# Days of the Julian calendar

`Julian.ordinal` is plain arithmetic on integers, and `Julian.Day` is a date of the
calendar that it stands for: a year, a month and a day of the month, where every fourth
year is a leap year. `Julian.Day.next` steps from date to date.

The months counted from January of year 0 make one sequence. The number of the first day
of a month rises along it by the length of the month (`monthStart_lt_succ`), so that the
order of dates is that of their numbers (`Day.number_lt_iff`). Since `Day.next` adds one
to the number, no number is left out (`Day.number_surjective`).

`Julian.ordinal_counts_days` puts this together with the Gregorian date of a number.
-/

namespace DateRules

open Calendar

/-- Every month has at least four whole weeks. -/
theorem Calendar.twentyEight_le_monthLength (leap : Bool) (month : Nat) :
    28 ≤ monthLength leap month := by
  unfold monthLength
  split
  · cases leap <;> decide
  all_goals decide

theorem Calendar.one_le_monthLength (leap : Bool) (month : Nat) : 1 ≤ monthLength leap month :=
  Nat.le_trans (by decide) (twentyEight_le_monthLength leap month)

/-- The date with a day number is the one that has this number. -/
theorem Date.ofOrdinal?_eq_ok_iff {n : Int} {d : Date} :
    Date.ofOrdinal? n = .ok d ↔ (d.ordinal : Int) = n := by
  constructor
  · intro h
    unfold Date.ofOrdinal? at h
    split at h
    · cases h
    · split at h
      · next hmem =>
          cases h
          rw [Date.ordinal_ofOrdinal]
          omega
      · split at h <;> cases h
  · rintro rfl
    have hmem := d.ordinal_mem
    obtain ⟨e, he, hordinal⟩ := Date.ofOrdinal?_eq_ok (n := d.ordinal) (by omega)
    rw [he, Date.ordinal_injective (Int.ofNat.inj hordinal)]

theorem Date.exists_ofOrdinal?_eq_ok_iff {n : Int} :
    (∃ d, Date.ofOrdinal? n = .ok d) ↔ 1 ≤ n ∧ n ≤ lastOrdinal := by
  constructor
  · rintro ⟨d, hd⟩
    have hmem := d.ordinal_mem
    rw [Date.ofOrdinal?_eq_ok_iff] at hd
    omega
  · intro h
    obtain ⟨d, hd, -⟩ := Date.ofOrdinal?_eq_ok h
    exact ⟨d, hd⟩

namespace Julian

section Months

/-- Every fourth year of the Julian calendar is a leap year. -/
def isLeapYear (year : Int) : Bool := year % 4 == 0

/-- Twelve months are one year, also where the month is out of its range. -/
theorem ordinal_add_twelve (year month day : Int) :
    ordinal year (month + 12) day = ordinal (year + 1) month day := by
  have hcarry : (14 - (month + 12)) / 12 = (14 - month) / 12 - 1 := by omega
  have hyears : year + 4800 - ((14 - month) / 12 - 1) = year + 1 + 4800 - (14 - month) / 12 := by
    omega
  have hmonths : month + 12 + 12 * ((14 - month) / 12 - 1) - 3 =
      month + 12 * ((14 - month) / 12) - 3 := by
    omega
  simp only [ordinal, hcarry, hyears, hmonths]

/-- From the first of a month to the first of the next are as many days as the month
has. -/
theorem ordinal_next_month (year : Int) {month : Nat} (h : 1 ≤ month ∧ month ≤ 12) :
    ordinal year (month + 1) 1 =
      ordinal year month 1 + monthLength (isLeapYear year) month := by
  obtain ⟨hfirst, hlast⟩ := h
  cases hleap : isLeapYear year with
  | true =>
      simp only [isLeapYear, beq_iff_eq] at hleap
      interval_cases month <;> simp only [ordinal, monthLength, if_true] <;> omega
  | false =>
      simp only [isLeapYear, beq_eq_false_iff_ne] at hleap
      interval_cases month <;>
        simp only [ordinal, monthLength, Bool.false_eq_true, if_false] <;> omega

/-- A day of a month is counted from the first one. -/
theorem ordinal_eq_first_add (year month day : Int) :
    ordinal year month day = ordinal year month 1 + (day - 1) := by
  rw [← ordinal_add_day]
  congr 1
  omega

/-- The number of the first day of a month, where months are counted from January of
year 0. -/
def monthStart (k : Int) : Int := ordinal (k / 12) (k % 12 + 1) 1

variable {month : Nat}

theorem monthStart_eq (year : Int) (h : 1 ≤ month ∧ month ≤ 12) :
    monthStart (12 * year + month - 1) = ordinal year month 1 := by
  have hyear : (12 * year + month - 1) / 12 = year := by omega
  have hmonth : (12 * year + month - 1) % 12 + 1 = month := by omega
  rw [monthStart, hyear, hmonth]

theorem monthStart_eq_next (year : Int) (h : 1 ≤ month ∧ month ≤ 12) :
    monthStart (12 * year + month) = ordinal year (month + 1) 1 := by
  rcases Nat.lt_or_ge month 12 with hlt | hge
  · have hnext := @monthStart_eq (month + 1) year (by omega)
    rw [Int.natCast_add, Int.natCast_one] at hnext
    rw [← hnext]
    congr 1
    omega
  · obtain rfl : month = 12 := by omega
    have hnext := @monthStart_eq 1 (year + 1) (by omega)
    rw [Int.natCast_one, ← ordinal_add_twelve] at hnext
    change _ = ordinal year (1 + 12) 1
    rw [← hnext]
    congr 1
    omega

theorem monthStart_lt_succ (k : Int) : monthStart k < monthStart (k + 1) := by
  obtain ⟨month, hmonth⟩ := Int.eq_ofNat_of_zero_le (a := k % 12) (by omega)
  have hmem : 1 ≤ month + 1 ∧ month + 1 ≤ 12 := by omega
  have hlength := one_le_monthLength (isLeapYear (k / 12)) (month + 1)
  have hstart := monthStart_eq (k / 12) hmem
  have hnext := monthStart_eq_next (k / 12) hmem
  have hk : 12 * (k / 12) + ((month + 1 : Nat) : Int) = k + 1 := by omega
  rw [hk, Int.add_sub_cancel] at hstart
  rw [hk] at hnext
  rw [hstart, hnext, ordinal_next_month _ hmem]
  omega

theorem monthStart_mono {j k : Int} (h : j ≤ k) : monthStart j ≤ monthStart k :=
  monotone_int_of_le_succ (fun n => Int.le_of_lt (monthStart_lt_succ n)) h

end Months

/-- A date of the Julian calendar. -/
structure Day where
  year : Int
  month : Nat
  day : Nat
  month_mem : 1 ≤ month ∧ month ≤ 12
  day_mem : 1 ≤ day ∧ day ≤ monthLength (isLeapYear year) month

namespace Day

/-- Dates are ordered by year, then by month, then by day. -/
instance : LT Day where
  lt a b := a.year < b.year ∨
    a.year = b.year ∧ (a.month < b.month ∨ a.month = b.month ∧ a.day < b.day)

theorem lt_iff {a b : Day} : a < b ↔ a.year < b.year ∨
    a.year = b.year ∧ (a.month < b.month ∨ a.month = b.month ∧ a.day < b.day) :=
  Iff.rfl

theorem lt_trichotomy (a b : Day) : a < b ∨ a = b ∨ b < a := by
  obtain ⟨year, month, day, _, _⟩ := a
  obtain ⟨year', month', day', _, _⟩ := b
  simp only [lt_iff, mk.injEq]
  omega

/-- The date after a date: in its month, on the first of the next month or on the first
of January. -/
def next (d : Day) : Day :=
  if h : d.day < monthLength (isLeapYear d.year) d.month then
    ⟨d.year, d.month, d.day + 1, d.month_mem, by omega⟩
  else if h : d.month < 12 then
    ⟨d.year, d.month + 1, 1, by omega, Nat.le_refl 1, one_le_monthLength _ _⟩
  else
    ⟨d.year + 1, 1, 1, by decide, Nat.le_refl 1, one_le_monthLength _ _⟩

/-- The number of the day that a date names. -/
def number (d : Day) : Int := ordinal d.year d.month d.day

/-- The number of months from January of year 0 to the month of a date. -/
def months (d : Day) : Int := 12 * d.year + d.month - 1

theorem number_eq (d : Day) : d.number = monthStart d.months + (d.day - 1) := by
  rw [months, monthStart_eq _ d.month_mem, number, ordinal_eq_first_add]

/-- A date lies before the first of the next month. -/
theorem number_lt_monthStart (d : Day) : d.number < monthStart (d.months + 1) := by
  have hday := d.day_mem
  have hnumber := d.number_eq
  have hstart := monthStart_eq d.year d.month_mem
  rw [months] at hnumber
  rw [months, Int.sub_add_cancel, monthStart_eq_next _ d.month_mem,
    ordinal_next_month _ d.month_mem]
  omega

theorem number_lt_of_lt {a b : Day} (h : a < b) : a.number < b.number := by
  have ha := a.month_mem
  have hb := b.month_mem
  rw [lt_iff] at h
  rcases Int.lt_trichotomy a.months b.months with hlt | heq | hgt
  · have hafter := a.number_lt_monthStart
    have hstart : monthStart (a.months + 1) ≤ monthStart b.months := monthStart_mono hlt
    have hbefore := b.number_eq
    have hday := b.day_mem
    omega
  · rw [number_eq, number_eq, heq]
    simp only [months] at heq
    omega
  · simp only [months] at hgt
    omega

theorem number_lt_iff {a b : Day} : a < b ↔ a.number < b.number := by
  constructor
  · exact number_lt_of_lt
  · intro h
    rcases lt_trichotomy a b with hlt | rfl | hgt
    · exact hlt
    · exact absurd h (Int.lt_irrefl _)
    · exact absurd (number_lt_of_lt hgt) (Int.not_lt.mpr (Int.le_of_lt h))

theorem number_injective : Function.Injective number := by
  intro a b h
  rcases lt_trichotomy a b with hlt | heq | hgt
  · exact absurd h (Int.ne_of_lt (number_lt_of_lt hlt))
  · exact heq
  · exact absurd h.symm (Int.ne_of_lt (number_lt_of_lt hgt))

/-- The date after a date has the next number. -/
theorem number_next (d : Day) : d.next.number = d.number + 1 := by
  have hmonth := d.month_mem
  have hday := d.day_mem
  have hnext := ordinal_next_month d.year d.month_mem
  have hnumber := ordinal_eq_first_add d.year d.month d.day
  rw [next]
  split
  · simp only [number, Int.natCast_add, Int.natCast_one, ordinal_add_day]
  · split
    · simp only [number, Int.natCast_add, Int.natCast_one]
      omega
    · -- The first of January comes after the last day of month 12 as of any month.
      have hdecember : (d.month : Int) = 12 := by omega
      have hyear : ordinal d.year (12 + 1) 1 = ordinal (d.year + 1) 1 1 :=
        ordinal_add_twelve d.year 1 1
      rw [hdecember] at hnext hnumber
      simp only [number, hdecember, Int.natCast_one]
      omega

theorem number_iterate_next (d : Day) (k : Nat) : (next^[k] d).number = d.number + k := by
  induction k with
  | zero => simp
  | succ k ih =>
      rw [Function.iterate_succ_apply', number_next, ih]
      omega

/-- The first of January. -/
def newYear (year : Int) : Day :=
  ⟨year, 1, 1, by decide, Nat.le_refl 1, one_le_monthLength _ _⟩

/-- Every number is that of a date: it is reached from the first of January of some year
by steps to the next date. -/
theorem number_surjective : Function.Surjective number := by
  intro n
  have hbefore : (newYear (min n 0)).number ≤ n := by
    simp only [newYear, number, ordinal]
    omega
  obtain ⟨k, hk⟩ := Int.le.dest hbefore
  exact ⟨_, (number_iterate_next _ k).trans hk⟩

end Day

/-- The arithmetic of the Julian calendar counts its days: it carries days and months
over on all integers, gives each month its length, and numbers the dates of all years in
order and without a gap. The Gregorian date of a Julian one has the same number, and
exists for the numbers from 1 to 3652059. -/
theorem ordinal_counts_days :
    (∀ year month day k : Int, ordinal year month (day + k) = ordinal year month day + k) ∧
    (∀ year month day : Int, ordinal year (month + 12) day = ordinal (year + 1) month day) ∧
    (∀ (year : Int) (month : Nat), 1 ≤ month ∧ month ≤ 12 →
      ordinal year (month + 1) 1 - ordinal year month 1 =
        monthLength (isLeapYear year) month) ∧
    (∀ a b : Day, a < b ↔ a.number < b.number) ∧ Function.Bijective Day.number ∧
    (∀ d : Day, d.next.number = d.number + 1) ∧
    toDate 1582 10 5 = .ok ⟨1582, 10, 15, by decide, by decide, by decide⟩ ∧
    ∀ year month day : Int,
      (∀ date, toDate year month day = .ok date ↔
        (date.ordinal : Int) = ordinal year month day) ∧
      ((∃ date, toDate year month day = .ok date) ↔
        1 ≤ ordinal year month day ∧ ordinal year month day ≤ 3652059) := by
  refine ⟨ordinal_add_day, ordinal_add_twelve, ?_, fun a b => Day.number_lt_iff,
    ⟨Day.number_injective, Day.number_surjective⟩, Day.number_next, ?_, ?_⟩
  · intro year month h
    rw [ordinal_next_month year h]
    omega
  · exact Date.ofOrdinal?_eq_ok_iff.mpr (by decide)
  · intro year month day
    exact ⟨fun date => Date.ofOrdinal?_eq_ok_iff, Date.exists_ofOrdinal?_eq_ok_iff⟩

/-- February of a leap year before year 1. -/
theorem ordinal_counts_days_february : ordinal (-4) 3 1 - ordinal (-4) 2 1 = 29 :=
  ordinal_counts_days.2.2.1 (-4) 2 (by decide)

end Julian

end DateRules
