import Mathlib.Data.Set.Card
import DateRules.Proofs.Calendar.Succession

/-!
# Counting weekdays

The first occurrence of a weekday within a month or a year lies in the first seven days
whatever day of the week these begin with, the second in the next seven days, and so on.
So `Date.yearCount` and `Date.monthCount` do not look at the weekday and still count the
days up to a date that have its weekday (`ncard_occurrences`): these are the days one, two
and more weeks before it.

`counts_occurrences` says so for the year and for the month.
-/

namespace DateRules

open Calendar

/-- The dates with the same weekday in the stretch of the calendar that ends with a date. -/
def occurrences (first d : Date) : Set Date :=
  {e | first ≤ e ∧ e ≤ d ∧ e.weekday = d.weekday}

section Counting

variable {first d e : Date}

theorem mem_occurrences_iff :
    e ∈ occurrences first d ↔
      first.ordinal ≤ e.ordinal ∧ ∃ weeks, e.ordinal + 7 * weeks = d.ordinal := by
  change first ≤ e ∧ e ≤ d ∧ e.weekday = d.weekday ↔ _
  rw [Date.le_iff_ordinal_le, Date.le_iff_ordinal_le, weekday_eq_iff]
  constructor
  · rintro ⟨hfirst, hle, weeks, hweeks⟩
    exact ⟨hfirst, weeks.toNat, by omega⟩
  · rintro ⟨hfirst, weeks, hweeks⟩
    exact ⟨hfirst, by omega, weeks, by omega⟩

/-- As many whole weeks as fit in the stretch, and one more. -/
theorem ncard_occurrences (h : first ≤ d) :
    (occurrences first d).ncard = (d.ordinal - first.ordinal) / 7 + 1 := by
  rw [Date.le_iff_ordinal_le] at h
  have hfirst := first.ordinal_mem
  have hd := d.ordinal_mem
  have hmem : ∀ weeks < (d.ordinal - first.ordinal) / 7 + 1,
      1 ≤ d.ordinal - 7 * weeks ∧ d.ordinal - 7 * weeks ≤ lastOrdinal := by
    intro weeks hweeks
    omega
  refine Set.ncard_eq_of_bijective
    (fun weeks hweeks => Date.ofOrdinal (d.ordinal - 7 * weeks) (hmem weeks hweeks)) ?_ ?_ ?_
  · intro e he
    obtain ⟨hle, weeks, hweeks⟩ := mem_occurrences_iff.mp he
    refine ⟨weeks, by omega, Date.ordinal_injective ?_⟩
    rw [Date.ordinal_ofOrdinal]
    omega
  · intro weeks hweeks
    rw [mem_occurrences_iff, Date.ordinal_ofOrdinal]
    exact ⟨by omega, weeks, by omega⟩
  · intro weeks weeks' hweeks hweeks' heq
    have hordinal := congrArg Date.ordinal heq
    rw [Date.ordinal_ofOrdinal, Date.ordinal_ofOrdinal] at hordinal
    omega

/-- The dates of a year up to a date are those from January 1 on. -/
theorem newYear_le_iff (h : e ≤ d) : d.newYear ≤ e ↔ e.year = d.year := by
  have hmonth := e.month_mem
  have hday := e.day_mem
  rw [Date.le_iff] at h ⊢
  simp only [Date.newYear]
  omega

/-- The dates of a month up to a date are those from the first on. -/
theorem monthStart_le_iff (h : e ≤ d) :
    d.monthStart ≤ e ↔ e.year = d.year ∧ e.month = d.month := by
  have hday := e.day_mem
  rw [Date.le_iff] at h ⊢
  simp only [Date.monthStart]
  omega

/-- The days that count are those of the stretch in which a date lies, up to the date. -/
theorem ncard_sameWeekday {p : Date → Prop} (h : ∀ e, e ≤ d → (first ≤ e ↔ p e)) (hd : p d) :
    {e | e ≤ d ∧ p e ∧ e.weekday = d.weekday}.ncard = (d.ordinal - first.ordinal) / 7 + 1 := by
  rw [← ncard_occurrences ((h d (.inr rfl)).mpr hd)]
  congr 1
  ext e
  constructor
  · rintro ⟨hle, hp, hweekday⟩
    exact ⟨(h e hle).mpr hp, hle, hweekday⟩
  · rintro ⟨hfirst, hle, hweekday⟩
    exact ⟨hle, (h e hle).mp hfirst, hweekday⟩

theorem ncard_sameWeekday_year (d : Date) :
    {e : Date | e ≤ d ∧ e.year = d.year ∧ e.weekday = d.weekday}.ncard = d.yearCount := by
  have hordinal := d.ordinal_eq_newYear_add
  have hposition := d.dayOfYear_mem
  rw [ncard_sameWeekday (p := fun e => e.year = d.year) (fun _ => newYear_le_iff) rfl,
    Date.yearCount]
  congr 2
  omega

theorem ncard_sameWeekday_month (d : Date) :
    {e : Date | e ≤ d ∧ (e.year = d.year ∧ e.month = d.month) ∧
      e.weekday = d.weekday}.ncard = d.monthCount := by
  have hordinal := d.ordinal_eq_monthStart_add
  have hday := d.day_mem
  rw [ncard_sameWeekday (p := fun e => e.year = d.year ∧ e.month = d.month)
    (fun _ => monthStart_le_iff) ⟨rfl, rfl⟩, Date.monthCount]
  congr 2
  omega

end Counting

section Months

variable {d e : Date}

/-- Dates of a month with the same weekday and the same count are the same. -/
theorem eq_of_monthCount_eq (hyear : d.year = e.year) (hmonth : d.month = e.month)
    (hweekday : d.weekday = e.weekday) (hcount : d.monthCount = e.monthCount) : d = e := by
  have hd := d.ordinal_eq_monthStart_add
  have he := e.ordinal_eq_monthStart_add
  have hstart : d.monthStart = e.monthStart := by
    simp only [Date.monthStart, hyear, hmonth]
  have hdday := d.day_mem
  have heday := e.day_mem
  obtain ⟨weeks, hweeks⟩ := weekday_eq_iff.mp hweekday
  rw [hstart] at hd
  simp only [Date.monthCount] at hcount
  exact Date.ordinal_injective (by omega)

/-- Seven days in a row fall on all days of the week. -/
theorem exists_monthCount_eq {year month n : Nat} (hyear : 1 ≤ year ∧ year ≤ 9999)
    (hmonth : 1 ≤ month ∧ month ≤ 12) (hn : 1 ≤ n ∧ n ≤ 4) (w : Weekday) :
    ∃ d : Date, (d.year = year ∧ d.month = month) ∧ d.weekday = w.number ∧ d.monthCount = n := by
  have hlength := twentyEight_le_monthLength (isLeapYear year) month
  let first : Date := ⟨year, month, 1, hyear, hmonth, Nat.le_refl 1, one_le_monthLength _ _⟩
  let day : Nat := 7 * (n - 1) + 1 + ((w.number - first.weekday) % 7).toNat
  have hday : 7 * (n - 1) + 1 ≤ day ∧ day ≤ 7 * n := by omega
  let d : Date := ⟨year, month, day, hyear, hmonth, by omega⟩
  refine ⟨d, ⟨rfl, rfl⟩, ?_, ?_⟩
  · have hordinal : d.ordinal + 1 = first.ordinal + day := d.ordinal_eq_monthStart_add
    have hw : 1 ≤ w.number ∧ w.number ≤ 7 := by cases w <;> decide
    have hday' : day = 7 * (n - 1) + 1 + ((w.number - first.weekday) % 7).toNat := rfl
    simp only [Date.weekday, weekdayOf] at hday' ⊢
    omega
  · change (day - 1) / 7 + 1 = n
    omega

end Months

/-- The counts of a date within its year and its month are the numbers of the days up to it
that have its weekday. In every month the first four of each weekday fall on exactly one
day each. -/
theorem counts_occurrences :
    (∀ d : Date, Quantity.yearCount.value d =
      {e : Date | e ≤ d ∧ e.year = d.year ∧ e.weekday = d.weekday}.ncard) ∧
    (∀ d : Date, Quantity.monthCount.value d =
      {e : Date | e ≤ d ∧ (e.year = d.year ∧ e.month = d.month) ∧ e.weekday = d.weekday}.ncard) ∧
    ∀ year month n : Nat, 1 ≤ year ∧ year ≤ 9999 → 1 ≤ month ∧ month ≤ 12 → 1 ≤ n ∧ n ≤ 4 →
      ∀ w : Weekday, ∃! d : Date, (d.year = year ∧ d.month = month) ∧
        Quantity.weekday.value d = w.number ∧ Quantity.monthCount.value d = n := by
  refine ⟨?_, ?_, ?_⟩
  · intro d
    rw [ncard_sameWeekday_year]
    rfl
  · intro d
    rw [ncard_sameWeekday_month]
    rfl
  · intro year month n hyear hmonth hn w
    simp only [Quantity.value, Int.natCast_inj]
    obtain ⟨d, hd, hweekday, hcount⟩ := exists_monthCount_eq hyear hmonth hn w
    refine ⟨d, ⟨hd, hweekday, hcount⟩, ?_⟩
    rintro e ⟨he, hweekday', hcount'⟩
    exact eq_of_monthCount_eq (he.1.trans hd.1.symm) (he.2.trans hd.2.symm)
      (hweekday'.trans hweekday.symm) (hcount'.trans hcount.symm)

/-- The last Sunday of a February that has four of each weekday. -/
theorem counts_occurrences_february :
    ∃! d : Date, (d.year = 2026 ∧ d.month = 2) ∧
      Quantity.weekday.value d = Weekday.sunday.number ∧ Quantity.monthCount.value d = 4 :=
  counts_occurrences.2.2 2026 2 4 (by decide) (by decide) (by decide) .sunday

end DateRules
