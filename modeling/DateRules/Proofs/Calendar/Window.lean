import Mathlib.Data.List.Sort
import DateRules.Calendar.Window

/-!
# The days of a window

A date is determined by its number (`Date.ordinal_injective`), so a window is the list,
in order, of the dates whose numbers lie in it (`mem_window`, `window_pairwise`).

`walk` reaches the days of a window one by one, each by a step from the day before that
fails on the last date. It never takes that step, and finds the same days
(`walk_eq_ok`).
-/

namespace DateRules

open Calendar

/-- A number lies in only one of the gaps between the values of a monotone function. -/
theorem gap_unique {f : Nat → Nat} (hf : ∀ {m n}, m ≤ n → f m ≤ f n) {a b n : Nat}
    (ha : f a < n ∧ n ≤ f (a + 1)) (hb : f b < n ∧ n ≤ f (b + 1)) : a = b := by
  rcases Nat.lt_trichotomy a b with hlt | heq | hgt
  · have hle : f (a + 1) ≤ f b := hf hlt
    omega
  · exact heq
  · have hle : f (b + 1) ≤ f a := hf hgt
    omega

namespace Date

theorem dayOfYear_bounds (d : Date) :
    daysBeforeMonth d.isLeap d.month < d.dayOfYear ∧
      d.dayOfYear ≤ daysBeforeMonth d.isLeap (d.month + 1) := by
  have hday := d.day_mem
  rw [daysBeforeMonth_succ _ d.month_mem.1]
  simp only [dayOfYear, isLeap] at *
  omega

theorem year_eq_of_ordinal_eq {d e : Date} (h : d.ordinal = e.ordinal) : d.year = e.year := by
  have hd := d.ordinal_bounds
  have he := e.ordinal_bounds
  have hdyear := d.year_mem.1
  have heyear := e.year_mem.1
  -- The number lies between the ends of the year before and of the year itself.
  have hpred : d.year - 1 = e.year - 1 := by
    apply gap_unique (n := d.ordinal) daysInYears_le
    · rwa [Nat.sub_add_cancel hdyear]
    · rwa [Nat.sub_add_cancel heyear, h]
  omega

theorem ordinal_injective {d e : Date} (h : d.ordinal = e.ordinal) : d = e := by
  have hyear := year_eq_of_ordinal_eq h
  have hleap : d.isLeap = e.isLeap := by rw [isLeap, isLeap, hyear]
  have hposition : d.dayOfYear = e.dayOfYear := by
    rw [ordinal, ordinal, hyear] at h
    omega
  have hmonth : d.month = e.month := by
    have he := e.dayOfYear_bounds
    rw [← hleap, ← hposition] at he
    exact gap_unique (daysBeforeMonth_le d.isLeap) d.dayOfYear_bounds he
  have hday : d.day = e.day := by
    rw [dayOfYear, dayOfYear, hleap, hmonth] at hposition
    omega
  cases d
  cases e
  simp only at hyear hmonth hday
  subst hyear hmonth hday
  rfl

theorem after?_eq_some_iff {d e : Date} {days : Nat} :
    d.after? days = some e ↔ e.ordinal = d.ordinal + days := by
  constructor
  · exact ordinal_after?
  · intro h
    have hmem : 1 ≤ d.ordinal + days ∧ d.ordinal + days ≤ lastOrdinal := h ▸ e.ordinal_mem
    rw [after?, dif_pos hmem, ordinal_injective ((ordinal_ofOrdinal hmem).trans h.symm)]

theorem eq_last_iff {d : Date} : d = last ↔ d.ordinal = lastOrdinal := by
  constructor
  · intro h
    rw [h, ordinal_last]
  · intro h
    exact ordinal_injective (h.trans ordinal_last.symm)

end Date

section Window

variable {start d e : Date} {count : Int}

theorem mem_window :
    d ∈ window start count ↔
      start.ordinal ≤ d.ordinal ∧ (d.ordinal : Int) < start.ordinal + count := by
  have hlast := d.ordinal_mem.2
  simp only [window, windowLength, List.mem_filterMap, List.mem_range,
    Date.after?_eq_some_iff]
  constructor
  · rintro ⟨days, hdays, hordinal⟩
    omega
  · rintro ⟨hle, hlt⟩
    exact ⟨d.ordinal - start.ordinal, by omega, by omega⟩

theorem window_pairwise (start : Date) (count : Int) :
    (window start count).Pairwise fun d e => d.ordinal < e.ordinal := by
  rw [window, List.pairwise_filterMap]
  refine List.pairwise_lt_range.imp ?_
  intro m n hmn d hd e he
  rw [Date.ordinal_after? hd, Date.ordinal_after? he]
  omega

/-- Lists of dates in order are equal if they hold the same dates. -/
theorem eq_of_ordered {first second : List Date}
    (hfirst : first.Pairwise fun d e => d.ordinal < e.ordinal)
    (hsecond : second.Pairwise fun d e => d.ordinal < e.ordinal)
    (h : ∀ d, d ∈ first ↔ d ∈ second) : first = second := by
  have : Std.Antisymm fun d e : Date => d.ordinal < e.ordinal :=
    ⟨fun _ _ hlt hgt => absurd hgt (Nat.lt_asymm hlt)⟩
  have : Std.Irrefl fun d e : Date => d.ordinal < e.ordinal := ⟨fun d => Nat.lt_irrefl d.ordinal⟩
  exact hfirst.eq_of_mem_iff hsecond h

end Window

/-- At most the given number of days after a date, each reached from the one before.
The last date is compared with before a step is taken. -/
def walkAfter (d : Date) : Nat → Except RangeError (List Date)
  | 0 => .ok []
  | days + 1 =>
      if d = Date.last then .ok []
      else do
        let next ← d.shift 1
        let rest ← walkAfter next days
        return next :: rest

/-- The days of a window, each reached from the one before. -/
def walk (start : Date) (count : Int) : Except RangeError (List Date) :=
  match count.toNat with
  | 0 => .ok []
  | days + 1 => do
      let rest ← walkAfter start days
      return start :: rest

/-- The days after a date, in order. -/
structure DaysAfter (d : Date) (days : Nat) (found : List Date) : Prop where
  ordered : found.Pairwise fun d e => d.ordinal < e.ordinal
  mem_iff : ∀ e, e ∈ found ↔ d.ordinal < e.ordinal ∧ e.ordinal ≤ d.ordinal + days

namespace DaysAfter

variable {d e : Date} {days : Nat} {found : List Date}

theorem cons_ordered (h : DaysAfter d days found) :
    (d :: found).Pairwise fun d e => d.ordinal < e.ordinal :=
  List.pairwise_cons.mpr ⟨fun e he => ((h.mem_iff e).mp he).1, h.ordered⟩

theorem mem_cons_iff (h : DaysAfter d days found) :
    e ∈ d :: found ↔ d.ordinal ≤ e.ordinal ∧ e.ordinal ≤ d.ordinal + days := by
  rw [List.mem_cons, h.mem_iff]
  constructor
  · rintro (rfl | hmem) <;> omega
  · intro hmem
    rcases Nat.lt_or_ge d.ordinal e.ordinal with hlt | hge
    · exact .inr (by omega)
    · exact .inl (Date.ordinal_injective (by omega))

theorem cons {next : Date} (hnext : next.ordinal = d.ordinal + 1)
    (h : DaysAfter next days found) : DaysAfter d (days + 1) (next :: found) where
  ordered := h.cons_ordered
  mem_iff := by
    intro e
    rw [h.mem_cons_iff]
    omega

end DaysAfter

theorem walkAfter_eq_ok (d : Date) (days : Nat) :
    ∃ found, walkAfter d days = .ok found ∧ DaysAfter d days found := by
  induction days generalizing d with
  | zero =>
      refine ⟨[], rfl, .nil, ?_⟩
      simp only [List.not_mem_nil, false_iff]
      omega
  | succ days ih =>
      rw [walkAfter]
      split
      · next hlast =>
          -- No date comes after the last one, however many days are left to walk.
          rw [Date.eq_last_iff] at hlast
          refine ⟨[], rfl, .nil, ?_⟩
          intro e
          have hmem := e.ordinal_mem
          simp only [List.not_mem_nil, false_iff]
          omega
      · next hlast =>
          rw [Date.eq_last_iff] at hlast
          have hmem := d.ordinal_mem
          obtain ⟨next, hshift, hnext⟩ := Date.shift_eq_ok (d := d) (k := 1) (by omega)
          obtain ⟨found, hwalk, hfound⟩ := ih next
          refine ⟨next :: found, ?_, hfound.cons (by omega)⟩
          rw [hshift]
          change (walkAfter next days >>= fun rest => pure (next :: rest)) = _
          rw [hwalk]
          rfl

/-- Walking through a window never leaves the range of dates and finds its days. -/
theorem walk_eq_ok (start : Date) (count : Int) :
    walk start count = .ok (window start count) := by
  rw [walk]
  split
  · next hcount =>
      congr 1
      apply eq_of_ordered .nil (window_pairwise start count)
      intro e
      rw [mem_window]
      simp only [List.not_mem_nil, false_iff]
      omega
  · next days hcount =>
      obtain ⟨found, hwalk, hfound⟩ := walkAfter_eq_ok start days
      rw [hwalk]
      change Except.ok (start :: found) = _
      congr 1
      apply eq_of_ordered hfound.cons_ordered (window_pairwise start count)
      intro e
      rw [mem_window, hfound.mem_cons_iff]
      omega

end DateRules
