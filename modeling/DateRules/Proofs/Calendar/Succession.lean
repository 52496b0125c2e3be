import DateRules.Expr.Eval
import DateRules.Proofs.Calendar.Easter

/-!
# From day to day

`Gregorian` is the calendar as it hangs on a wall: the lengths of the months, with a
February 29 in every fourth year but for three centuries out of four. `NextDay` is the
step to the day after, and the order of dates compares years, then months, then days.

The day numbers go along with both. Dates that follow each other have numbers that follow
each other (`nextDay_iff`), so that the numbers tell the order of dates and how far apart
they are (`Date.lt_iff_ordinal_lt`, `daysLater_iff`). From this `quantities_day_by_day`
tells how the quantities of a date go on from each day to the next.
-/

namespace DateRules

open Calendar

namespace Gregorian

/-- Every fourth year is a leap year, but of the centuries only every fourth one. -/
def IsLeap (year : Nat) : Prop := 4 ∣ year ∧ (100 ∣ year → 400 ∣ year)

instance (year : Nat) : Decidable (IsLeap year) :=
  inferInstanceAs (Decidable (_ ∧ (_ → _)))

/-- The lengths of the months of a year. -/
def lengths (year : Nat) : List Nat :=
  [31, if IsLeap year then 29 else 28, 31, 30, 31, 30, 31, 31, 30, 31, 30, 31]

/-- The last day of a month. -/
def lastDay (year month : Nat) : Nat := (lengths year).getD (month - 1) 0

theorem isLeapYear_iff (year : Nat) : isLeapYear year ↔ IsLeap year := by
  simp only [isLeapYear_natCast, IsLeap, Bool.and_eq_true, Bool.or_eq_true, beq_iff_eq,
    bne_iff_ne]
  omega

theorem monthLength_eq_lastDay (year : Nat) {month : Nat} (h : 1 ≤ month ∧ month ≤ 12) :
    monthLength (isLeapYear year) month = lastDay year month := by
  have hfebruary : monthLength (isLeapYear year) 2 = if IsLeap year then 29 else 28 :=
    if_congr (isLeapYear_iff year) rfl rfl
  obtain ⟨hfirst, hlast⟩ := h
  interval_cases month
  case «2» => exact hfebruary
  all_goals rfl

end Gregorian

open Gregorian

namespace Date

/-- Dates are ordered by year, then by month, then by day. -/
instance : LT Date where
  lt d e := d.year < e.year ∨
    d.year = e.year ∧ (d.month < e.month ∨ d.month = e.month ∧ d.day < e.day)

instance : LE Date where
  le d e := d < e ∨ d = e

instance (d e : Date) : Decidable (d < e) :=
  inferInstanceAs (Decidable (_ ∨ _))

theorem january_mem : 1 ≤ 1 ∧ 1 ≤ 12 := by decide

/-- January 1 of the date's year. -/
def newYear (d : Date) : Date :=
  ⟨d.year, 1, 1, d.year_mem, january_mem, Nat.le_refl 1, one_le_monthLength _ _⟩

/-- The first day of the date's month. -/
def monthStart (d : Date) : Date :=
  ⟨d.year, d.month, 1, d.year_mem, d.month_mem, Nat.le_refl 1, one_le_monthLength _ _⟩

section Order

variable {d e : Date}

theorem lt_iff : d < e ↔ d.year < e.year ∨
    d.year = e.year ∧ (d.month < e.month ∨ d.month = e.month ∧ d.day < e.day) :=
  Iff.rfl

theorem le_iff : d ≤ e ↔ d.year < e.year ∨
    d.year = e.year ∧ (d.month < e.month ∨ d.month = e.month ∧ d.day ≤ e.day) := by
  obtain ⟨year, month, day, _, _, _⟩ := d
  obtain ⟨year', month', day', _, _, _⟩ := e
  change mk year month day _ _ _ < mk year' month' day' _ _ _ ∨ _ ↔ _
  simp only [lt_iff, mk.injEq]
  omega

theorem lt_trichotomy (d e : Date) : d < e ∨ d = e ∨ e < d := by
  obtain ⟨year, month, day, _, _, _⟩ := d
  obtain ⟨year', month', day', _, _, _⟩ := e
  simp only [lt_iff, mk.injEq]
  omega

theorem ordinal_eq_of_year_eq (h : d.year = e.year) :
    d.ordinal + e.dayOfYear = e.ordinal + d.dayOfYear := by
  rw [ordinal, ordinal, h]
  omega

theorem dayOfYear_eq_of_month_eq (hyear : d.year = e.year) (hmonth : d.month = e.month) :
    d.dayOfYear + e.day = e.dayOfYear + d.day := by
  rw [dayOfYear, dayOfYear, isLeap, isLeap, hyear, hmonth]
  omega

theorem ordinal_lt_of_lt (h : d < e) : d.ordinal < e.ordinal := by
  rcases h with hyear | ⟨hyear, hmonth | ⟨hmonth, hday⟩⟩
  · have hd := d.ordinal_bounds.2
    have he := e.ordinal_bounds.1
    have hbetween : daysInYears d.year ≤ daysInYears (e.year - 1) := daysInYears_le (by omega)
    omega
  · have hd := d.dayOfYear_bounds.2
    have he := e.dayOfYear_bounds.1
    have hbetween : daysBeforeMonth d.isLeap (d.month + 1) ≤ daysBeforeMonth e.isLeap e.month := by
      rw [isLeap, isLeap, hyear]
      exact daysBeforeMonth_le _ hmonth
    have hordinal := ordinal_eq_of_year_eq hyear
    omega
  · have hposition := dayOfYear_eq_of_month_eq hyear hmonth
    have hordinal := ordinal_eq_of_year_eq hyear
    omega

/-- The order of dates is that of their numbers. -/
theorem lt_iff_ordinal_lt : d < e ↔ d.ordinal < e.ordinal := by
  constructor
  · exact ordinal_lt_of_lt
  · intro h
    rcases lt_trichotomy d e with hlt | rfl | hgt
    · exact hlt
    · exact absurd h (Nat.lt_irrefl _)
    · exact absurd (ordinal_lt_of_lt hgt) (Nat.lt_asymm h)

theorem le_iff_ordinal_le : d ≤ e ↔ d.ordinal ≤ e.ordinal := by
  change d < e ∨ d = e ↔ _
  rw [lt_iff_ordinal_lt, Nat.le_iff_lt_or_eq]
  exact or_congr_right ⟨congrArg ordinal, ordinal_injective⟩

theorem lt_last_iff : d < last ↔ d.ordinal < lastOrdinal := by
  rw [lt_iff_ordinal_lt, ordinal_last]

/-- The position in the year is counted from January 1. -/
theorem ordinal_eq_newYear_add (d : Date) : d.ordinal + 1 = d.newYear.ordinal + d.dayOfYear :=
  ordinal_eq_of_year_eq (d := d) (e := d.newYear) rfl

theorem ordinal_eq_monthStart_add (d : Date) : d.ordinal + 1 = d.monthStart.ordinal + d.day := by
  have hordinal := ordinal_eq_of_year_eq (d := d) (e := d.monthStart) rfl
  have hposition := dayOfYear_eq_of_month_eq (d := d) (e := d.monthStart) rfl rfl
  have hfirst : d.monthStart.day = 1 := rfl
  omega

end Order

end Date

/-- The day after a date: in its month, on the first of the next month or on January 1. -/
inductive NextDay (d e : Date) : Prop
  | inMonth (hday : d.day < lastDay d.year d.month) (year : e.year = d.year)
      (month : e.month = d.month) (day : e.day = d.day + 1)
  | inYear (hday : d.day = lastDay d.year d.month) (hmonth : d.month < 12)
      (year : e.year = d.year) (month : e.month = d.month + 1) (day : e.day = 1)
  | newYear (hday : d.day = 31) (hmonth : d.month = 12) (year : e.year = d.year + 1)
      (month : e.month = 1) (day : e.day = 1)

/-- The date that is reached by a number of steps to the day after. -/
inductive DaysLater (d : Date) : Nat → Date → Prop
  | zero : DaysLater d 0 d
  | succ {k : Nat} {e f : Date} (h : DaysLater d k e) (hnext : NextDay e f) :
      DaysLater d (k + 1) f

section Steps

variable {d e : Date}

theorem NextDay.dayOfYear_eq (h : NextDay d e) (hyear : e.year = d.year) :
    e.dayOfYear = d.dayOfYear + 1 := by
  have hleap : e.isLeap = d.isLeap := by rw [Date.isLeap, Date.isLeap, hyear]
  cases h with
  | inMonth _ _ month day =>
      rw [Date.dayOfYear, Date.dayOfYear, hleap, month, day]
      omega
  | inYear hday _ _ month day =>
      rw [← monthLength_eq_lastDay _ d.month_mem] at hday
      rw [Date.dayOfYear, Date.dayOfYear, hleap, month, day,
        daysBeforeMonth_succ _ d.month_mem.1, hday]
      rfl
  | newYear _ _ year => omega

/-- The day after a date lies in the same year, or the one is December 31 and the other
January 1. -/
theorem NextDay.year_cases (h : NextDay d e) :
    e.year = d.year ∨
      (d.month = 12 ∧ d.day = 31) ∧ e.year = d.year + 1 ∧ e.month = 1 ∧ e.day = 1 := by
  cases h with
  | inMonth _ year => exact .inl year
  | inYear _ _ year => exact .inl year
  | newYear hday hmonth year month day => exact .inr ⟨⟨hmonth, hday⟩, year, month, day⟩

/-- December 31 is the last day of its year. -/
theorem dayOfYear_december (hmonth : d.month = 12) (hday : d.day = 31) :
    d.dayOfYear = yearLength d.isLeap := by
  rw [Date.dayOfYear, hmonth, hday, ← daysBeforeMonth_thirteen]
  rfl

theorem dayOfYear_january (hmonth : d.month = 1) (hday : d.day = 1) : d.dayOfYear = 1 := by
  rw [Date.dayOfYear, hmonth, hday]
  rfl

theorem NextDay.ordinal_eq (h : NextDay d e) : e.ordinal = d.ordinal + 1 := by
  have hsame : e.year = d.year → e.ordinal = d.ordinal + 1 := by
    intro hyear
    have hposition := h.dayOfYear_eq hyear
    have hordinal := Date.ordinal_eq_of_year_eq hyear
    omega
  cases h with
  | inMonth _ year => exact hsame year
  | inYear _ _ year => exact hsame year
  | newYear hday hmonth year month day =>
      have hlength := daysInYears_succ (d.year - 1)
      rw [Nat.sub_add_cancel d.year_mem.1] at hlength
      have hlast : d.ordinal = daysInYears d.year := by
        rw [hlength, Date.ordinal, dayOfYear_december hmonth hday]
        rfl
      rw [hlast, Date.ordinal, dayOfYear_january month day, year]
      rfl

/-- Every date but the last one has a day after it. -/
theorem exists_nextDay (h : d < .last) : ∃ e, NextDay d e := by
  have hmonth := d.month_mem
  have hday := d.day_mem
  rw [monthLength_eq_lastDay _ hmonth] at hday
  rcases Nat.lt_or_eq_of_le hday.2 with hinside | hend
  · refine ⟨⟨d.year, d.month, d.day + 1, d.year_mem, hmonth, ?_⟩,
      .inMonth hinside rfl rfl rfl⟩
    rw [monthLength_eq_lastDay _ hmonth]
    omega
  · rcases Nat.lt_or_eq_of_le hmonth.2 with hbefore | hdecember
    · exact ⟨⟨d.year, d.month + 1, 1, d.year_mem, by omega, Nat.le_refl 1,
        one_le_monthLength _ _⟩, .inYear hend hbefore rfl rfl rfl⟩
    · have hthirtyOne : d.day = 31 := by
        rw [hend, hdecember]
        rfl
      have hyear : d.year < 9999 := by
        have hmem := d.year_mem
        have hlast : Date.last.year = 9999 ∧ Date.last.month = 12 ∧ Date.last.day = 31 :=
          ⟨rfl, rfl, rfl⟩
        rw [Date.lt_iff] at h
        omega
      exact ⟨⟨d.year + 1, 1, 1, by omega, by decide, Nat.le_refl 1, one_le_monthLength _ _⟩,
        .newYear hthirtyOne hdecember rfl rfl rfl⟩

/-- A date is the day after another one if its number is the next one. -/
theorem nextDay_iff : NextDay d e ↔ e.ordinal = d.ordinal + 1 := by
  constructor
  · exact NextDay.ordinal_eq
  · intro h
    have hmem := e.ordinal_mem
    obtain ⟨f, hf⟩ := exists_nextDay (Date.lt_last_iff.mpr (by omega : d.ordinal < lastOrdinal))
    rwa [Date.ordinal_injective (h.trans hf.ordinal_eq.symm)]

theorem DaysLater.ordinal_eq {k : Nat} (h : DaysLater d k e) : e.ordinal = d.ordinal + k := by
  induction h with
  | zero => rfl
  | succ _ hnext ih =>
      rw [hnext.ordinal_eq, ih]
      rfl

/-- The difference of the numbers of two dates is their distance in days. -/
theorem daysLater_iff {k : Nat} : DaysLater d k e ↔ e.ordinal = d.ordinal + k := by
  constructor
  · exact DaysLater.ordinal_eq
  · intro h
    induction k generalizing e with
    | zero =>
        rw [Date.ordinal_injective h]
        exact .zero
    | succ k ih =>
        have hmem := e.ordinal_mem
        have hbefore : 1 ≤ d.ordinal + k ∧ d.ordinal + k ≤ lastOrdinal := by
          have := d.ordinal_mem
          omega
        have hordinal := Date.ordinal_ofOrdinal hbefore
        refine .succ (ih hordinal) (nextDay_iff.mpr ?_)
        rw [hordinal, h]
        rfl

end Steps

section Quantities

variable {d e : Date}

theorem nextDay_iff_shift : NextDay d e ↔ d.shift 1 = .ok e := by
  rw [nextDay_iff, Date.shift_eq_ok_iff]
  omega

theorem weekday_of_nextDay (h : NextDay d e) : e.weekday = d.weekday % 7 + 1 := by
  simp only [Date.weekday, weekdayOf, h.ordinal_eq]
  omega

theorem weekday_eq_iff : d.weekday = e.weekday ↔ (7 : Int) ∣ e.ordinal - d.ordinal := by
  simp only [Date.weekday, weekdayOf]
  omega

theorem easter_eq_of_year_eq (h : d.year = e.year) : d.easter = e.easter := by
  have hd := d.orthodoxEaster_year
  rw [h, e.orthodoxEaster_year] at hd
  exact (Except.ok.inj hd).symm

theorem easterOffset_of_nextDay (h : NextDay d e) (hyear : e.year = d.year) :
    e.easterOffset = d.easterOffset + 1 := by
  rw [Date.easterOffset, Date.easterOffset, h.ordinal_eq, easter_eq_of_year_eq hyear]
  omega

theorem julian_sub (d e : Date) :
    Quantity.julian.value e - Quantity.julian.value d = (e.ordinal : Int) - d.ordinal := by
  simp only [Quantity.value, Date.modifiedJulianDay]
  omega

/-- In the same year the position and the days since Easter go one up. A new year begins
with position 1, after as many days as the old one has. -/
theorem year_quantities_of_nextDay (h : NextDay d e) :
    e.year = d.year ∧ Quantity.yearDay.value e = Quantity.yearDay.value d + 1 ∧
        Quantity.easter.value e = Quantity.easter.value d + 1 ∨
      (d.month = 12 ∧ d.day = 31) ∧ (e.year = d.year + 1 ∧ e.month = 1 ∧ e.day = 1) ∧
        Quantity.yearDay.value e = 1 ∧
        Quantity.yearDay.value d = if isLeapYear d.year then 366 else 365 := by
  simp only [Quantity.value]
  rcases h.year_cases with hyear | ⟨⟨hmonth, hday⟩, hyear, hfirstMonth, hfirstDay⟩
  · exact .inl ⟨hyear, congrArg Nat.cast (h.dayOfYear_eq hyear), easterOffset_of_nextDay h hyear⟩
  · refine .inr ⟨⟨hmonth, hday⟩, ⟨hyear, hfirstMonth, hfirstDay⟩, ?_, ?_⟩
    · rw [dayOfYear_january hfirstMonth hfirstDay]
      rfl
    · rw [dayOfYear_december hmonth hday, yearLength, Date.isLeap]
      split <;> rfl

end Quantities

/-- Every date but the last has a day after it. From the one to the other the day count
goes one up, the weekday one on, and within a year the position and the days since Easter
go one up. So the day count tells how far apart two dates are and which is the earlier, and
the weekday returns every seven days and on no other. -/
theorem quantities_day_by_day :
    (∀ d e : Date, NextDay d e ↔ d.shift 1 = .ok e) ∧
    (∀ d : Date, d < .last → ∃ e, NextDay d e ∧
      Quantity.julian.value e = Quantity.julian.value d + 1 ∧
      Quantity.weekday.value e = Quantity.weekday.value d % 7 + 1 ∧
      (e.year = d.year ∧ Quantity.yearDay.value e = Quantity.yearDay.value d + 1 ∧
          Quantity.easter.value e = Quantity.easter.value d + 1 ∨
        (d.month = 12 ∧ d.day = 31) ∧ (e.year = d.year + 1 ∧ e.month = 1 ∧ e.day = 1) ∧
          Quantity.yearDay.value e = 1 ∧
          Quantity.yearDay.value d = if isLeapYear d.year then 366 else 365)) ∧
    (∀ d : Date, 1 ≤ Quantity.weekday.value d ∧ Quantity.weekday.value d ≤ 7) ∧
    (∀ d : Date, Quantity.yearDay.value d =
      Quantity.julian.value d - Quantity.julian.value d.newYear + 1) ∧
    (∀ (d e : Date) (k : Nat),
      DaysLater d k e ↔ Quantity.julian.value e - Quantity.julian.value d = k) ∧
    (∀ d e : Date, Quantity.julian.value d < Quantity.julian.value e ↔ d < e) ∧
    (∀ d e : Date, Quantity.weekday.value d = Quantity.weekday.value e ↔
      7 ∣ Quantity.julian.value e - Quantity.julian.value d) ∧
    ∀ d : Date, Statement.isWeekend.holds d ↔
      Quantity.weekday.value d = 6 ∨ Quantity.weekday.value d = 7 := by
  refine ⟨fun d e => nextDay_iff_shift, ?_, Date.weekday_mem, ?_, ?_, ?_, ?_, ?_⟩
  · intro d hd
    obtain ⟨e, he⟩ := exists_nextDay hd
    refine ⟨e, he, ?_, weekday_of_nextDay he, year_quantities_of_nextDay he⟩
    have hsub := julian_sub d e
    rw [he.ordinal_eq] at hsub
    omega
  · intro d
    have hordinal := d.ordinal_eq_newYear_add
    rw [julian_sub]
    simp only [Quantity.value]
    omega
  · intro d e k
    rw [daysLater_iff, julian_sub]
    omega
  · intro d e
    have hsub := julian_sub d e
    rw [Date.lt_iff_ordinal_lt]
    omega
  · intro d e
    rw [julian_sub]
    exact weekday_eq_iff
  · intro d
    simp [Statement.holds, Date.isWeekend, Quantity.value]

/-- The end of a century that is no leap year. -/
theorem quantities_day_by_day_century :
    Date.mk 1900 12 31 (by decide) (by decide) (by decide) < .last ∧
      ∃ e, NextDay ⟨1900, 12, 31, by decide, by decide, by decide⟩ e ∧ e.year = 1901 ∧
        Quantity.yearDay.value ⟨1900, 12, 31, by decide, by decide, by decide⟩ = 365 := by
  refine ⟨by decide, ?_⟩
  obtain ⟨e, hnext, -, -, hyear⟩ :=
    quantities_day_by_day.2.1 ⟨1900, 12, 31, by decide, by decide, by decide⟩ (by decide)
  refine ⟨e, hnext, ?_, rfl⟩
  rcases hyear with ⟨hyear, -⟩ | ⟨-, ⟨hyear, -⟩, -⟩
  · cases hnext with
    | inMonth hday => exact absurd hday (by decide)
    | inYear _ hmonth => exact absurd hmonth (by decide)
    | newYear _ _ year => exact year
  · exact hyear

end DateRules
