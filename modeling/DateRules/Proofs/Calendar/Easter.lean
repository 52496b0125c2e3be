import DateRules.Calendar.Easter
import DateRules.Proofs.Calendar.Julian

/-!
# The days of Easter

`easterNumber` is the day number of Easter as plain arithmetic, for every integer year.
`orthodoxEaster` finds the date with this number in the years from 1 to 9999 and none in
any other year (`orthodoxEaster_eq_ok_iff`).

`Computus` finds the same day on the Julian calendar by congruences modulo 4, 7, 19
and 30, without a calendar (`Computus.ordinal_month_day`). The years from March 21 to the
paschal full moon and from there to Sunday return after 532 years.

The main statements are `orthodoxEaster_eq_computus` and `easter_once_a_year`.
-/

namespace DateRules

open Calendar

/-- The day number of the paschal full moon. -/
def moonNumber (year : Int) : Int := Julian.ordinal year 4 19 - shiftedEpact year

/-- The day number of Easter. The Sundays are the days whose numbers 7 divides. -/
def easterNumber (year : Int) : Int := moonNumber year + (7 - moonNumber year % 7)

namespace Computus

/-- The days from March 21 to the paschal full moon. -/
def moonDelay (year : Int) : Int := (19 * (year % 19) + 15) % 30

/-- The days from the day after the paschal full moon to Easter. -/
def sundayDelay (year : Int) : Int :=
  (2 * (year % 4) + 4 * (year % 7) - moonDelay year + 34) % 7

/-- The month of Easter on the Julian calendar. -/
def month (year : Int) : Int := (moonDelay year + sundayDelay year + 114) / 31

/-- The day of the month on which Easter falls on the Julian calendar. -/
def day (year : Int) : Int := (moonDelay year + sundayDelay year + 114) % 31 + 1

section Congruences

variable (year : Int)

/-- None of the nineteen years of the cycle has a delay of 29 days. -/
theorem moonDelay_mem : 0 ≤ moonDelay year ∧ moonDelay year ≤ 28 := by
  simp only [moonDelay]
  omega

theorem sundayDelay_mem : 0 ≤ sundayDelay year ∧ sundayDelay year ≤ 6 := by
  simp only [sundayDelay]
  omega

/-- The moon is counted on from March 21 by the one and back from April 19 by the
other. -/
theorem moonDelay_add_shiftedEpact : moonDelay year + shiftedEpact year = 29 := by
  simp only [moonDelay, shiftedEpact]
  omega

theorem ordinal_march : Julian.ordinal year 3 21 = 365 * year + year / 4 - 287 := by
  simp only [Julian.ordinal]
  omega

theorem moonNumber_eq : moonNumber year = Julian.ordinal year 3 21 + moonDelay year := by
  have hsum := moonDelay_add_shiftedEpact year
  have hmarch : Julian.ordinal year 4 19 = Julian.ordinal year 3 21 + 29 := by
    simp only [Julian.ordinal]
    omega
  rw [moonNumber, hmarch]
  omega

theorem sundayDelay_eq : sundayDelay year = 6 - moonNumber year % 7 := by
  -- The day number of the moon and the sum under the congruence make up whole weeks but
  -- for one day.
  have hweeks : 2 * (year % 4) + 4 * (year % 7) - moonDelay year + 34 + moonNumber year =
      7 * (53 * (year % 4) + 211 * (year / 4) - 4 * (year / 7) - 37) + 6 := by
    rw [moonNumber_eq, ordinal_march]
    omega
  rw [sundayDelay]
  omega

theorem month_day_eq :
    month year = 3 ∧ day year = 22 + moonDelay year + sundayDelay year ∨
      month year = 4 ∧ day year + 31 = 22 + moonDelay year + sundayDelay year := by
  have hmoon := moonDelay_mem year
  have hsunday := sundayDelay_mem year
  simp only [month, day]
  omega

/-- The month and the day found by the congruences are those of Easter. -/
theorem ordinal_month_day : Julian.ordinal year (month year) (day year) = easterNumber year := by
  have hsunday := sundayDelay_eq year
  have hmoon := moonNumber_eq year
  have hmarch := Julian.ordinal_eq_first_add year 3 21
  rw [easterNumber]
  rcases month_day_eq year with ⟨hmonth, hday⟩ | ⟨hmonth, hday⟩
  · rw [hmonth, Julian.ordinal_eq_first_add]
    omega
  · have hapril : Julian.ordinal year 4 1 = Julian.ordinal year 3 1 + 31 := by
      simp only [Julian.ordinal]
      omega
    rw [hmonth, Julian.ordinal_eq_first_add]
    omega

/-- Easter lies between March 22 and April 25. -/
theorem month_day_mem :
    month year = 3 ∧ 22 ≤ day year ∧ day year ≤ 31 ∨
      month year = 4 ∧ 1 ≤ day year ∧ day year ≤ 25 := by
  have hmoon := moonDelay_mem year
  have hsunday := sundayDelay_mem year
  simp only [month, day]
  omega

end Congruences

end Computus

open Computus

section Numbers

variable (year : Int)

/-- After 532 years moon and weekday fall together again. -/
theorem easterNumber_add_period : easterNumber (year + 532) = easterNumber year + 194313 := by
  have hcycle : (year + 532) % 19 = year % 19 := by omega
  have hmoon : moonNumber (year + 532) = moonNumber year + 194313 := by
    rw [moonNumber_eq, moonNumber_eq, ordinal_march, ordinal_march, moonDelay, moonDelay, hcycle]
    omega
  rw [easterNumber, easterNumber, hmoon]
  omega

/-- Easter is the first Sunday after the paschal full moon. -/
theorem easterNumber_spec :
    easterNumber year % 7 = 0 ∧ moonNumber year < easterNumber year ∧
      easterNumber year ≤ moonNumber year + 7 := by
  rw [easterNumber]
  omega

/-- In the years of a date the Julian calendar has not moved so far that Easter would leave
the Gregorian year. -/
theorem easterNumber_mem {y : Nat} (h : 1 ≤ y ∧ y ≤ 9999) :
    (daysInYears (y - 1) : Int) < easterNumber y ∧ easterNumber y ≤ daysInYears y := by
  have hdelay := moonDelay_mem y
  have hmoon := moonNumber_eq y
  rw [ordinal_march] at hmoon
  simp only [easterNumber, daysInYears]
  omega

end Numbers

namespace Date

variable {d e : Date}

theorem shift_eq_ok_iff {k : Int} : d.shift k = .ok e ↔ (e.ordinal : Int) = d.ordinal + k := by
  constructor
  · intro h
    unfold shift at h
    split at h
    · next hmem =>
        cases h
        rw [ordinal_ofOrdinal]
        omega
    · cases h
  · intro h
    have hmem := e.ordinal_mem
    obtain ⟨found, hshift, hfound⟩ := shift_eq_ok (d := d) (k := k) (by omega)
    rw [hshift, ordinal_injective (Int.ofNat.inj (hfound.trans h.symm))]

theorem weekday_eq_seven_iff : d.weekday = 7 ↔ (d.ordinal : Int) % 7 = 0 := by
  simp only [weekday, weekdayOf]
  omega

theorem sundayAfter_eq_ok_iff :
    d.sundayAfter = .ok e ↔ (e.ordinal : Int) = d.ordinal + (7 - (d.ordinal : Int) % 7) := by
  have hweekday : d.weekday % 7 = (d.ordinal : Int) % 7 := by
    simp only [weekday, weekdayOf]
    omega
  rw [sundayAfter, shift_eq_ok_iff, hweekday]

/-- The year of a date is the one between whose ends its number lies. -/
theorem year_eq_of_mem {y : Nat} (hpos : 1 ≤ y)
    (h : daysInYears (y - 1) < d.ordinal ∧ d.ordinal ≤ daysInYears y) : d.year = y := by
  have hmem := d.year_mem.1
  have hbounds := d.ordinal_bounds
  have hpred : d.year - 1 = y - 1 := by
    apply gap_unique (n := d.ordinal) daysInYears_le
    · rwa [Nat.sub_add_cancel hmem]
    · rwa [Nat.sub_add_cancel hpos]
  omega

end Date

section Years

variable {year : Int}

/-- In every other year April 19 of the Julian calendar lies outside the range of
dates already. -/
theorem orthodoxEaster_eq_error (h : ¬ (1 ≤ year ∧ year ≤ 9999)) :
    ∃ error, Date.ofOrdinal? (Julian.ordinal year 4 19) = .error error ∧
      orthodoxEaster year = .error error := by
  cases hapril : Date.ofOrdinal? (Julian.ordinal year 4 19) with
  | ok april =>
      have hmem := Date.exists_ofOrdinal?_eq_ok_iff.mp ⟨april, hapril⟩
      simp only [Julian.ordinal, lastOrdinal_eq] at hmem
      omega
  | error error =>
      refine ⟨error, rfl, ?_⟩
      simp [orthodoxEaster, paschalMoon, Julian.toDate, hapril, bind, Except.bind]

/-- In the years of a date the paschal full moon and Easter are found. -/
theorem exists_moon_easter (h : 1 ≤ year ∧ year ≤ 9999) :
    ∃ moon sunday, paschalMoon year = .ok moon ∧ orthodoxEaster year = .ok sunday ∧
      (moon.ordinal : Int) = moonNumber year ∧ (sunday.ordinal : Int) = easterNumber year := by
  obtain ⟨moon, hmoon, hnumber⟩ := paschalMoon_eq_ok h
  obtain ⟨sunday, hsunday⟩ := orthodoxEaster_eq_ok h
  have hafter : moon.sundayAfter = .ok sunday := by
    simpa [orthodoxEaster, hmoon, bind, Except.bind] using hsunday
  refine ⟨moon, sunday, hmoon, hsunday, hnumber, ?_⟩
  rw [Date.sundayAfter_eq_ok_iff.mp hafter, hnumber]
  rfl

theorem orthodoxEaster_eq_ok_iff {d : Date} :
    orthodoxEaster year = .ok d ↔
      (1 ≤ year ∧ year ≤ 9999) ∧ (d.ordinal : Int) = easterNumber year := by
  by_cases h : 1 ≤ year ∧ year ≤ 9999
  · obtain ⟨-, sunday, -, hsunday, -, hnumber⟩ := exists_moon_easter h
    constructor
    · intro hd
      obtain rfl : sunday = d := Except.ok.inj (hsunday.symm.trans hd)
      exact ⟨h, hnumber⟩
    · rintro ⟨-, hd⟩
      rw [hsunday, Date.ordinal_injective (Int.ofNat.inj (hnumber.trans hd.symm))]
  · obtain ⟨error, -, herror⟩ := orthodoxEaster_eq_error h
    constructor
    · intro hd
      cases herror.symm.trans hd
    · rintro ⟨hmem, -⟩
      exact absurd hmem h

/-- The Gregorian year of Easter is the Julian one. -/
theorem year_of_orthodoxEaster {sunday : Date} (h : orthodoxEaster year = .ok sunday) :
    (sunday.year : Int) = year := by
  obtain ⟨hyear, hnumber⟩ := orthodoxEaster_eq_ok_iff.mp h
  obtain ⟨y, rfl⟩ := Int.eq_ofNat_of_zero_le (a := year) (by omega)
  have hy : 1 ≤ y ∧ y ≤ 9999 := by omega
  have hmem := easterNumber_mem hy
  rw [← hnumber] at hmem
  exact congrArg _ (Date.year_eq_of_mem hy.1 (by omega))

theorem Date.isEaster_iff {d : Date} : d.isEaster ↔ orthodoxEaster d.year = .ok d := by
  rw [d.orthodoxEaster_year, isEaster, beq_iff_eq]
  exact ⟨fun h => congrArg _ h, Except.ok.inj⟩

theorem Date.isEaster_iff_easterOffset {d : Date} : d.isEaster ↔ d.easterOffset = 0 := by
  rw [isEaster, beq_iff_eq, easterOffset]
  constructor
  · intro h
    rw [h, Int.sub_self]
  · intro h
    exact ordinal_injective (by omega)

/-- A year has exactly one Easter. -/
theorem existsUnique_isEaster (h : 1 ≤ year ∧ year ≤ 9999) :
    ∃! d : Date, (d.year : Int) = year ∧ d.isEaster := by
  obtain ⟨sunday, hsunday⟩ := orthodoxEaster_eq_ok h
  have hyear := year_of_orthodoxEaster hsunday
  refine ⟨sunday, ⟨hyear, ?_⟩, ?_⟩
  · rw [Date.isEaster_iff, hyear]
    exact hsunday
  · rintro d ⟨rfl, hd⟩
    exact Except.ok.inj ((Date.isEaster_iff.mp hd).symm.trans hsunday)

end Years

/-- Easter is the day that the congruences give on the Julian calendar. It falls there on
March 22 at the earliest and on April 25 at the latest, and after 532 years it returns to
the same day. -/
theorem orthodoxEaster_eq_computus :
    (∀ year : Int, 1 ≤ year ∧ year ≤ 9999 →
      ∃ sunday, orthodoxEaster year = .ok sunday ∧
        Julian.toDate year (month year) (day year) = .ok sunday) ∧
    (∀ year : Int, month year = 3 ∧ 22 ≤ day year ∧ day year ≤ 31 ∨
      month year = 4 ∧ 1 ≤ day year ∧ day year ≤ 25) ∧
    ∀ year : Int, 1 ≤ year ∧ year + 532 ≤ 9999 →
      ∃ first second, orthodoxEaster year = .ok first ∧
        orthodoxEaster (year + 532) = .ok second ∧
        (second.ordinal : Int) = first.ordinal + 194313 := by
  refine ⟨?_, month_day_mem, ?_⟩
  · intro year h
    obtain ⟨-, sunday, -, hsunday, -, hnumber⟩ := exists_moon_easter h
    refine ⟨sunday, hsunday, Date.ofOrdinal?_eq_ok_iff.mpr ?_⟩
    rw [ordinal_month_day, hnumber]
  · intro year h
    have hbefore : 1 ≤ year ∧ year ≤ 9999 := by omega
    have hafter : 1 ≤ year + 532 ∧ year + 532 ≤ 9999 := by omega
    obtain ⟨-, first, -, hfirst, -, hnumber⟩ := exists_moon_easter hbefore
    obtain ⟨-, second, -, hsecond, -, hnumber'⟩ := exists_moon_easter hafter
    refine ⟨first, second, hfirst, hsecond, ?_⟩
    rw [hnumber', hnumber, easterNumber_add_period]

/-- The last year of the calendar, and the year whose Easter it repeats. -/
theorem orthodoxEaster_eq_computus_last :
    (∃ sunday, orthodoxEaster 9999 = .ok sunday ∧ Julian.toDate 9999 4 15 = .ok sunday) ∧
    ∃ first second, orthodoxEaster 9467 = .ok first ∧ orthodoxEaster 9999 = .ok second ∧
      (second.ordinal : Int) = first.ordinal + 194313 :=
  ⟨orthodoxEaster_eq_computus.1 9999 (by decide),
    orthodoxEaster_eq_computus.2.2 9467 (by decide)⟩

/-- Easter exists in the years from 1 to 9999 and in no other. It is the first Sunday after
the paschal full moon and lies in the Gregorian year of the same number, which has no other
Easter. For every date it can be told whether it is Easter and how far Easter is. -/
theorem easter_once_a_year :
    (∀ year : Int, (∃ sunday, orthodoxEaster year = .ok sunday) ↔ 1 ≤ year ∧ year ≤ 9999) ∧
    (∀ year : Int, ¬ (1 ≤ year ∧ year ≤ 9999) →
      ∃ error, Date.ofOrdinal? (Julian.ordinal year 4 19) = .error error ∧
        orthodoxEaster year = .error error) ∧
    (∀ year : Int, 1 ≤ year ∧ year ≤ 9999 →
      ∃ moon sunday, paschalMoon year = .ok moon ∧ orthodoxEaster year = .ok sunday ∧
        (sunday.year : Int) = year ∧ sunday.weekday = 7 ∧
        (moon.ordinal < sunday.ordinal ∧ sunday.ordinal ≤ moon.ordinal + 7) ∧
        ∀ d : Date, d.weekday = 7 → moon.ordinal < d.ordinal → sunday.ordinal ≤ d.ordinal) ∧
    (∀ year : Int, 1 ≤ year ∧ year ≤ 9999 → ∃! d : Date, (d.year : Int) = year ∧ d.isEaster) ∧
    ∀ d : Date, (orthodoxEaster d.year).map (· == d) = .ok d.isEaster ∧
      (orthodoxEaster d.year).map (fun sunday => (d.ordinal : Int) - sunday.ordinal) =
        .ok d.easterOffset ∧
      (d.isEaster ↔ d.easterOffset = 0) := by
  refine ⟨?_, fun year => orthodoxEaster_eq_error, ?_, fun year => existsUnique_isEaster, ?_⟩
  · intro year
    constructor
    · rintro ⟨sunday, hsunday⟩
      exact (orthodoxEaster_eq_ok_iff.mp hsunday).1
    · exact orthodoxEaster_eq_ok
  · intro year h
    obtain ⟨moon, sunday, hmoon, hsunday, hmoonNumber, hnumber⟩ := exists_moon_easter h
    have hspec := easterNumber_spec year
    refine ⟨moon, sunday, hmoon, hsunday, year_of_orthodoxEaster hsunday, ?_, by omega, ?_⟩
    · rw [Date.weekday_eq_seven_iff]
      omega
    · intro d hd hafter
      rw [Date.weekday_eq_seven_iff] at hd
      omega
  · intro d
    rw [d.orthodoxEaster_year]
    exact ⟨rfl, rfl, Date.isEaster_iff_easterOffset⟩

/-- A year whose paschal full moon falls on a Sunday, and the first year without Easter. -/
theorem easter_once_a_year_sunday :
    (∃ error, Date.ofOrdinal? (Julian.ordinal 10000 4 19) = .error error ∧
      orthodoxEaster 10000 = .error error) ∧
    (∃ moon sunday, paschalMoon 2024 = .ok moon ∧ orthodoxEaster 2024 = .ok sunday ∧
      (sunday.year : Int) = 2024 ∧ sunday.weekday = 7 ∧
      (moon.ordinal < sunday.ordinal ∧ sunday.ordinal ≤ moon.ordinal + 7) ∧
      ∀ d : Date, d.weekday = 7 → moon.ordinal < d.ordinal → sunday.ordinal ≤ d.ordinal) ∧
    ∃! d : Date, (d.year : Int) = 2024 ∧ d.isEaster :=
  ⟨easter_once_a_year.2.1 10000 (by decide), easter_once_a_year.2.2.1 2024 (by decide),
    easter_once_a_year.2.2.2.1 2024 (by decide)⟩

end DateRules
