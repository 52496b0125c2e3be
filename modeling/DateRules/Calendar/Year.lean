/-!
# Years and months

Lengths of the years and months of the proleptic Gregorian calendar, and the
number of days that lie before a year or a month. Years are counted from 1 and
months from 1 to 12.

`yearOf n` is the year that holds day number `n`, where day 1 is 0001-01-01;
`yearOf_bounds` says so. `monthOf` does the same for the months of one year.
-/

namespace DateRules

namespace Calendar

/-- Every fourth year is a leap year, except the centuries that 400 does not
divide. The rule extends to all integers. -/
def isLeapYear (year : Int) : Bool :=
  year % 4 == 0 && (year % 100 != 0 || year % 400 == 0)

/-- The number of days of a month. -/
def monthLength (leap : Bool) : Nat → Nat
  | 2 => if leap then 29 else 28
  | 4 | 6 | 9 | 11 => 30
  | _ => 31

/-- The number of days of a year. -/
def yearLength (leap : Bool) : Nat := if leap then 366 else 365

/-- The number of days of the first `n` years. -/
def daysInYears (n : Nat) : Nat := 365 * n + n / 4 - n / 100 + n / 400

/-- The number of days of a year that lie before its given month. -/
def daysBeforeMonth (leap : Bool) : Nat → Nat
  | 0 => 0
  | 1 => 0
  | m + 2 => daysBeforeMonth leap (m + 1) + monthLength leap (m + 1)

theorem daysBeforeMonth_succ (leap : Bool) {month : Nat} (h : 1 ≤ month) :
    daysBeforeMonth leap (month + 1) =
      daysBeforeMonth leap month + monthLength leap month := by
  obtain ⟨m, rfl⟩ : ∃ m, month = m + 1 := ⟨month - 1, by omega⟩
  rfl

theorem daysBeforeMonth_le (leap : Bool) {m n : Nat} (h : m ≤ n) :
    daysBeforeMonth leap m ≤ daysBeforeMonth leap n := by
  induction n with
  | zero => simp [Nat.le_zero.mp h]
  | succ n ih =>
      rcases Nat.lt_or_ge n m with hlt | hge
      · exact Nat.le_of_eq (congrArg (daysBeforeMonth leap) (Nat.le_antisymm h hlt))
      · match n, ih with
        | 0, _ => simp [Nat.le_zero.mp hge, daysBeforeMonth]
        | n + 1, ih => exact Nat.le_trans (ih hge) (Nat.le_add_right _ _)

theorem daysBeforeMonth_thirteen (leap : Bool) :
    daysBeforeMonth leap 13 = yearLength leap := by
  cases leap <;> rfl

theorem succ_div_four (n : Nat) :
    (n + 1) / 4 = n / 4 + if (n + 1) % 4 = 0 then 1 else 0 := by
  split <;> omega

theorem succ_div_hundred (n : Nat) :
    (n + 1) / 100 = n / 100 + if (n + 1) % 100 = 0 then 1 else 0 := by
  split <;> omega

theorem succ_div_four_hundred (n : Nat) :
    (n + 1) / 400 = n / 400 + if (n + 1) % 400 = 0 then 1 else 0 := by
  split <;> omega

theorem isLeapYear_natCast (year : Nat) :
    isLeapYear year = (year % 4 == 0 && (year % 100 != 0 || year % 400 == 0)) := by
  rw [isLeapYear, Bool.eq_iff_iff]
  simp only [Bool.and_eq_true, Bool.or_eq_true, beq_iff_eq, bne_iff_ne]
  omega

/-- The days of `n + 1` years are those of `n` years and of year `n + 1`. -/
theorem daysInYears_succ (n : Nat) :
    daysInYears (n + 1) = daysInYears n + yearLength (isLeapYear (n + 1 : Nat)) := by
  simp only [daysInYears, yearLength, isLeapYear_natCast, succ_div_four,
    succ_div_hundred, succ_div_four_hundred, Bool.and_eq_true, Bool.or_eq_true,
    beq_iff_eq, bne_iff_ne]
  have hle : n / 100 ≤ n / 4 := Nat.div_le_div_left (by decide) (by decide)
  have h100 : (n + 1) % 100 = 0 → (n + 1) % 4 = 0 := by omega
  have h400 : (n + 1) % 400 = 0 → (n + 1) % 100 = 0 := by omega
  generalize n / 4 = q at *
  generalize n / 100 = c at *
  generalize n / 400 = y at *
  by_cases h4 : (n + 1) % 4 = 0 <;> by_cases hc : (n + 1) % 100 = 0 <;>
    by_cases hy : (n + 1) % 400 = 0 <;> simp_all <;> omega

theorem daysInYears_le {m n : Nat} (h : m ≤ n) : daysInYears m ≤ daysInYears n := by
  induction n with
  | zero => simp [Nat.le_zero.mp h]
  | succ n ih =>
      rcases Nat.lt_or_ge n m with hlt | hge
      · exact Nat.le_of_eq (congrArg daysInYears (Nat.le_antisymm h hlt))
      · rw [daysInYears_succ]
        exact Nat.le_trans (ih hge) (Nat.le_add_right _ _)

/-- The year that holds day `n`, for `n` from 1 on: whole cycles of 400 years,
then at most three whole centuries, whole groups of four years, and at most
three whole years lie before it. -/
def yearOf (n : Nat) : Nat :=
  let cycles := (n - 1) / 146097
  let inCycle := (n - 1) % 146097
  let centuries := min (inCycle / 36524) 3
  let inCentury := inCycle - 36524 * centuries
  let groups := inCentury / 1461
  let inGroup := inCentury % 1461
  let years := min (inGroup / 365) 3
  400 * cycles + 100 * centuries + 4 * groups + years + 1

theorem daysInYears_parts {cycles centuries groups years : Nat}
    (hc : centuries ≤ 3) (hg : groups ≤ 24) (hy : years ≤ 3) :
    daysInYears (400 * cycles + 100 * centuries + 4 * groups + years) =
      146097 * cycles + 36524 * centuries + 1461 * groups + 365 * years := by
  simp only [daysInYears]
  omega

/-- Day `n` lies after all days of the years before `yearOf n`, and not after
the last day of that year. -/
theorem yearOf_bounds {n : Nat} (h : 1 ≤ n) :
    1 ≤ yearOf n ∧ daysInYears (yearOf n - 1) < n ∧ n ≤ daysInYears (yearOf n) := by
  have hlast : ∀ m, daysInYears (m + 1) = daysInYears m +
      yearLength (isLeapYear (m + 1 : Nat)) := daysInYears_succ
  simp only [yearOf]
  generalize hcy : (n - 1) / 146097 = cycles
  generalize hr : (n - 1) % 146097 = inCycle
  generalize hce : min (inCycle / 36524) 3 = centuries
  generalize hq : inCycle - 36524 * centuries = inCentury
  generalize hgr : inCentury / 1461 = groups
  generalize hs : inCentury % 1461 = inGroup
  generalize hye : min (inGroup / 365) 3 = years
  have hcen : centuries ≤ 3 := by omega
  have hyr : years ≤ 3 := by omega
  have hgrp : groups ≤ 24 := by omega
  have hpart := @daysInYears_parts cycles _ _ _ hcen hgrp hyr
  refine ⟨by omega, ?_, ?_⟩
  · rw [Nat.add_sub_cancel, hpart]
    omega
  · rw [daysInYears_succ, hpart]
    simp only [yearLength, isLeapYear, Bool.and_eq_true, Bool.or_eq_true, beq_iff_eq,
      bne_iff_ne]
    split <;> omega

/-- The position of day `n` within its year, from 1. -/
def dayInYear (n : Nat) : Nat := n - daysInYears (yearOf n - 1)

theorem dayInYear_mem {n : Nat} (h : 1 ≤ n) :
    1 ≤ dayInYear n ∧ dayInYear n ≤ yearLength (isLeapYear (yearOf n)) := by
  have hyear := yearOf_bounds h
  have hlength := daysInYears_succ (yearOf n - 1)
  rw [Nat.sub_add_cancel hyear.1] at hlength
  simp only [dayInYear]
  omega

theorem daysInYears_add_dayInYear {n : Nat} (h : 1 ≤ n) :
    daysInYears (yearOf n - 1) + dayInYear n = n := by
  have hyear := yearOf_bounds h
  simp only [dayInYear]
  omega

theorem yearOf_le {n : Nat} (h : n ≤ 3652059) : yearOf n ≤ 9999 := by
  simp only [yearOf]
  omega

/-- The last month, searching down from `month`, that begins before day `day`
of the year is over. -/
def monthUpTo (leap : Bool) (day : Nat) : Nat → Nat
  | 0 | 1 => 1
  | m + 2 => if daysBeforeMonth leap (m + 2) < day then m + 2 else monthUpTo leap day (m + 1)

/-- The month that holds day `day` of a year. -/
def monthOf (leap : Bool) (day : Nat) : Nat := monthUpTo leap day 12

theorem monthUpTo_mem (leap : Bool) (day : Nat) {month : Nat} (h : 1 ≤ month) :
    1 ≤ monthUpTo leap day month ∧ monthUpTo leap day month ≤ month := by
  induction month with
  | zero => omega
  | succ m ih =>
      match m with
      | 0 => simp [monthUpTo]
      | m + 1 =>
          rw [monthUpTo]
          split
          · omega
          · have := ih (by omega)
            omega

theorem monthUpTo_bounds (leap : Bool) {day month : Nat} (h : 1 ≤ month) (hpos : 1 ≤ day)
    (hlast : day ≤ daysBeforeMonth leap (month + 1)) :
    daysBeforeMonth leap (monthUpTo leap day month) < day ∧
      day ≤ daysBeforeMonth leap (monthUpTo leap day month + 1) := by
  induction month with
  | zero => omega
  | succ m ih =>
      match m, h, ih, hlast with
      | 0, _, _, hlast => exact ⟨by simp only [monthUpTo, daysBeforeMonth]; omega, hlast⟩
      | m + 1, _, ih, hlast =>
          rw [monthUpTo]
          split
          · exact ⟨by assumption, hlast⟩
          · exact ih (by omega) (by change day ≤ daysBeforeMonth leap (m + 2); omega)

theorem monthOf_mem (leap : Bool) (day : Nat) :
    1 ≤ monthOf leap day ∧ monthOf leap day ≤ 12 :=
  monthUpTo_mem leap day (by decide)

/-- Every day of a year lies after the days before its month and not after the
last day of that month. -/
theorem monthOf_bounds (leap : Bool) {day : Nat} (hpos : 1 ≤ day)
    (hlast : day ≤ yearLength leap) :
    daysBeforeMonth leap (monthOf leap day) < day ∧
      day ≤ daysBeforeMonth leap (monthOf leap day) + monthLength leap (monthOf leap day) := by
  rw [← daysBeforeMonth_succ leap (monthOf_mem leap day).1]
  exact monthUpTo_bounds leap (by decide) hpos (by rwa [daysBeforeMonth_thirteen])

/-- The position of a day of the year within its month, from 1. -/
def dayInMonth (leap : Bool) (day : Nat) : Nat :=
  day - daysBeforeMonth leap (monthOf leap day)

theorem dayInMonth_mem (leap : Bool) {day : Nat} (hpos : 1 ≤ day)
    (hlast : day ≤ yearLength leap) :
    1 ≤ dayInMonth leap day ∧ dayInMonth leap day ≤ monthLength leap (monthOf leap day) := by
  have hmonth := monthOf_bounds leap hpos hlast
  simp only [dayInMonth]
  omega

theorem daysBeforeMonth_add_dayInMonth (leap : Bool) {day : Nat} (hpos : 1 ≤ day)
    (hlast : day ≤ yearLength leap) :
    daysBeforeMonth leap (monthOf leap day) + dayInMonth leap day = day := by
  have hmonth := monthOf_bounds leap hpos hlast
  simp only [dayInMonth]
  omega

end Calendar

end DateRules
