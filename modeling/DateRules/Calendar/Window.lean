import DateRules.Calendar.Date

/-!
# Windows of days

`window start count` holds the `count` days from `start` on, in order. It is cut
short at the last date and empty when `count` is not positive.

`firstInWindow` finds the first day of a window with a property and builds no
day after it; `firstInWindow_eq_find?` says that it is the first such day of the
list.
-/

namespace DateRules

/-- The date a number of days later, if the range of dates reaches it. -/
def Date.after? (d : Date) (days : Nat) : Option Date :=
  if h : 1 ≤ d.ordinal + days ∧ d.ordinal + days ≤ lastOrdinal then
    some (Date.ofOrdinal (d.ordinal + days) h)
  else
    none

/-- The number of days of a window. -/
def windowLength (start : Date) (count : Int) : Nat :=
  min count.toNat (lastOrdinal + 1 - start.ordinal)

/-- The days of the window of `count` days from `start` on. -/
def window (start : Date) (count : Int) : List Date :=
  (List.range (windowLength start count)).filterMap start.after?

/-- The first day with a property among the given number of days, of which the
first is `skipped` days after `start`. -/
def firstAfter (start : Date) (holds : Date → Bool) (skipped : Nat) : Nat → Option Date
  | 0 => none
  | days + 1 =>
      match start.after? skipped with
      | some d => if holds d then some d else firstAfter start holds (skipped + 1) days
      | none => firstAfter start holds (skipped + 1) days

/-- The first day of a window with a property. -/
def firstInWindow (start : Date) (count : Int) (holds : Date → Bool) : Option Date :=
  firstAfter start holds 0 (windowLength start count)

theorem firstAfter_eq_find? (start : Date) (holds : Date → Bool) (skipped days : Nat) :
    firstAfter start holds skipped days =
      ((List.range' skipped days).filterMap start.after?).find? holds := by
  induction days generalizing skipped with
  | zero => rfl
  | succ days ih =>
      rw [firstAfter, List.range'_succ, List.filterMap_cons]
      cases start.after? skipped with
      | none => exact ih (skipped + 1)
      | some d => cases hd : holds d <;> simp [hd, ih]

theorem firstInWindow_eq_find? (start : Date) (count : Int) (holds : Date → Bool) :
    firstInWindow start count holds = (window start count).find? holds := by
  rw [firstInWindow, window, firstAfter_eq_find?, List.range_eq_range']

theorem Date.ordinal_after? {d e : Date} {days : Nat} (h : d.after? days = some e) :
    e.ordinal = d.ordinal + days := by
  unfold Date.after? at h
  split at h
  · cases h
    exact Date.ordinal_ofOrdinal _
  · cases h

end DateRules
