import DateRules.Calendar.Julian
import DateRules.Calendar.Week

/-!
# Orthodox Easter

Easter is the first Sunday strictly after the paschal full moon, which is
computed on the Julian calendar: from April 19 it lies as many days back as the
year's place in the cycle of nineteen years says.

`paschalMoon` and `orthodoxEaster` are defined for every integer year and fail
where the range of dates ends. `orthodoxEaster_eq_ok` says that they do not
fail in the years of a `Date`, so that `Date.easter` needs no failure.
-/

namespace DateRules

/-- The first Sunday strictly after a date. -/
def Date.sundayAfter (d : Date) : Except RangeError Date :=
  d.shift (7 - d.weekday % 7)

/-- The number of days by which the paschal full moon lies before April 19. -/
def shiftedEpact (year : Int) : Int := (14 + 11 * (year % 19)) % 30

/-- The Orthodox paschal full moon of a year. -/
def paschalMoon (year : Int) : Except RangeError Date := do
  let april ← Julian.toDate year 4 19
  april.shift (-shiftedEpact year)

/-- The Orthodox Easter Sunday of a year. -/
def orthodoxEaster (year : Int) : Except RangeError Date := do
  let moon ← paschalMoon year
  moon.sundayAfter

theorem paschalMoon_eq_ok {year : Int} (h : 1 ≤ year ∧ year ≤ 9999) :
    ∃ moon, paschalMoon year = .ok moon ∧
      (moon.ordinal : Int) = Julian.ordinal year 4 19 - shiftedEpact year := by
  have hbounds : 30 ≤ Julian.ordinal year 4 19 ∧ Julian.ordinal year 4 19 ≤ 3652000 := by
    simp only [Julian.ordinal]
    omega
  have hepact : 0 ≤ shiftedEpact year ∧ shiftedEpact year < 30 := by
    simp only [shiftedEpact]
    omega
  have hlast := lastOrdinal_eq
  obtain ⟨april, hapril, hnumber⟩ := Date.ofOrdinal?_eq_ok
    (n := Julian.ordinal year 4 19) (by omega)
  obtain ⟨moon, hmoon, hordinal⟩ := Date.shift_eq_ok
    (d := april) (k := -shiftedEpact year) (by omega)
  refine ⟨moon, ?_, by omega⟩
  simp [paschalMoon, Julian.toDate, hapril, hmoon, bind, Except.bind]

theorem orthodoxEaster_eq_ok {year : Int} (h : 1 ≤ year ∧ year ≤ 9999) :
    ∃ sunday, orthodoxEaster year = .ok sunday := by
  obtain ⟨moon, hmoon, hordinal⟩ := paschalMoon_eq_ok h
  have hbounds : 30 ≤ Julian.ordinal year 4 19 ∧ Julian.ordinal year 4 19 ≤ 3652000 := by
    simp only [Julian.ordinal]
    omega
  have hepact : 0 ≤ shiftedEpact year ∧ shiftedEpact year < 30 := by
    simp only [shiftedEpact]
    omega
  have hweekday := moon.weekday_mem
  have hlast := lastOrdinal_eq
  obtain ⟨sunday, hsunday, -⟩ := Date.shift_eq_ok
    (d := moon) (k := 7 - moon.weekday % 7) (by omega)
  exact ⟨sunday, by simp [orthodoxEaster, hmoon, Date.sundayAfter, hsunday, bind, Except.bind]⟩

/-- A computation that has a value succeeds with it. -/
theorem eq_ok_toOption_get {ε α : Type} {x : Except ε α} (h : x.toOption.isSome) :
    x = .ok (x.toOption.get h) := by
  cases x with
  | ok a => rfl
  | error e => simp [Except.toOption] at h

namespace Date

theorem orthodoxEaster_year_isSome (d : Date) :
    (orthodoxEaster d.year).toOption.isSome := by
  have hyear := d.year_mem
  obtain ⟨sunday, hsunday⟩ :=
    orthodoxEaster_eq_ok (by omega : 1 ≤ (d.year : Int) ∧ (d.year : Int) ≤ 9999)
  rw [hsunday]
  rfl

/-- The Orthodox Easter Sunday of the date's year. -/
def easter (d : Date) : Date :=
  (orthodoxEaster d.year).toOption.get d.orthodoxEaster_year_isSome

theorem orthodoxEaster_year (d : Date) : orthodoxEaster d.year = .ok d.easter :=
  eq_ok_toOption_get d.orthodoxEaster_year_isSome

/-- Whether the date is the Easter Sunday of its year. -/
def isEaster (d : Date) : Bool := d.easter == d

/-- The signed number of days from the Easter Sunday of the date's year to the
date. -/
def easterOffset (d : Date) : Int := (d.ordinal : Int) - d.easter.ordinal

end Date

end DateRules
