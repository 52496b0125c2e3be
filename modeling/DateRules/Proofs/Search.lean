import DateRules.Search
import DateRules.Proofs.Calendar.Succession
import DateRules.Proofs.Expr.Absence

/-!
# Searching day by day

A search goes from day to day and evaluates its expression on each. `visitWindow` is this
loop, with whatever is done on the days it visits: a visit may end the loop, and then no
further day is reached. A step may lead out of the range of dates and an evaluation may
fail, but the loop goes through the days of the window like one over a list
(`visitWindow_eq_forIn`), so that neither search fails (`attemptWithin_eq_ok`,
`attemptNext_eq_ok`).

`search_exact` says which days are found, and that a search may be split at any day.
-/

namespace DateRules

/-- From a date that is not the last a walk goes on. -/
theorem walkAfter_succ {d : Date} (h : d ≠ .last) (days : Nat) :
    ∃ next rest, d.shift 1 = .ok next ∧ walkAfter next days = .ok rest ∧
      walkAfter d (days + 1) = .ok (next :: rest) := by
  have hmem := d.ordinal_mem
  have hlt : d.ordinal ≠ lastOrdinal := fun hlast => h (Date.eq_last_iff.mpr hlast)
  obtain ⟨next, hshift, -⟩ := Date.shift_eq_ok (d := d) (k := 1) (by omega)
  obtain ⟨rest, hrest, -⟩ := walkAfter_eq_ok next days
  refine ⟨next, rest, hshift, hrest, ?_⟩
  rw [walkAfter, if_neg h, hshift]
  change (walkAfter next days >>= fun rest => pure (next :: rest)) = _
  rw [hrest]
  rfl

section Visits

variable {α : Type} (visit : Date → α → Except EvalFailure (ForInStep α))

/-- Visits at most the given number of days after a date, each reached by a step from the
one before. The last date is compared with before a step is taken. -/
def visitAfter (d : Date) (state : α) : Nat → Except EvalFailure α
  | 0 => .ok state
  | days + 1 =>
      if d = .last then .ok state
      else do
        let next ← (d.shift 1).mapError .outOfRange
        match ← visit next state with
        | .done state => .ok state
        | .yield state => visitAfter next state days

/-- Visits the days of a window, each reached by a step from the one before. -/
def visitWindow (start : Date) (count : Int) (state : α) : Except EvalFailure α :=
  match count.toNat with
  | 0 => .ok state
  | days + 1 => do
      match ← visit start state with
      | .done state => .ok state
      | .yield state => visitAfter visit start state days

/-- A visit and those that come after it are a loop if those after it are. -/
theorem visit_eq_forIn {d : Date} {days : Nat} {rest : List Date}
    (h : ∀ state, visitAfter visit d state days = forIn rest state visit) (state : α) :
    (do
      match ← visit d state with
      | .done state => .ok state
      | .yield state => visitAfter visit d state days) = forIn (d :: rest) state visit := by
  rw [List.forIn_cons]
  congr 1
  funext step
  cases step with
  | done state => rfl
  | yield state => exact h state

theorem visitAfter_eq_forIn {d : Date} {days : Nat} {found : List Date}
    (h : walkAfter d days = .ok found) (state : α) :
    visitAfter visit d state days = forIn found state visit := by
  induction days generalizing d found state with
  | zero =>
      cases h
      rfl
  | succ days ih =>
      by_cases hlast : d = .last
      · rw [walkAfter, if_pos hlast] at h
        cases h
        rw [visitAfter, if_pos hlast]
        rfl
      · obtain ⟨next, rest, hshift, hrest, hfound⟩ := walkAfter_succ hlast days
        obtain rfl := Except.ok.inj (hfound.symm.trans h)
        rw [visitAfter, if_neg hlast, hshift]
        exact visit_eq_forIn visit (ih hrest) state

/-- The loop goes through the days of the window. -/
theorem visitWindow_eq_forIn (start : Date) (count : Int) (state : α) :
    visitWindow visit start count state = forIn (window start count) state visit := by
  have hwalk := walk_eq_ok start count
  rw [walk] at hwalk
  rw [visitWindow]
  cases hcount : count.toNat with
  | zero =>
      rw [hcount] at hwalk
      rw [← Except.ok.inj hwalk]
      rfl
  | succ days =>
      obtain ⟨rest, hrest, -⟩ := walkAfter_eq_ok start days
      simp only [hcount, hrest] at hwalk
      rw [← Except.ok.inj hwalk]
      exact visit_eq_forIn visit (visitAfter_eq_forIn visit hrest) state

end Visits

section Loops

variable {α ε : Type} {ask : α → Except ε Bool} {p : α → Bool}

theorem forIn_collect (hask : ∀ a, ask a = .ok (p a)) (items found : List α) :
    (forIn items found fun a found => do
      if ← ask a then return .yield (found ++ [a]) else return .yield found) =
      Except.ok (found ++ items.filter p) := by
  induction items generalizing found with
  | nil => simp [pure, Except.pure]
  | cons a items ih =>
      rw [List.forIn_cons, hask]
      cases hp : p a with
      | true => simpa [bind, Except.bind, pure, Except.pure, hp] using ih (found ++ [a])
      | false => simpa [bind, Except.bind, pure, Except.pure, hp] using ih found

theorem forIn_first (hask : ∀ a, ask a = .ok (p a)) (items : List α) :
    (forIn items none fun a _ => do
      if ← ask a then return .done (some a) else return .yield none) =
      Except.ok (items.find? p) := by
  induction items with
  | nil => rfl
  | cons a items ih =>
      rw [List.forIn_cons, hask]
      cases hp : p a with
      | true => simp [bind, Except.bind, pure, Except.pure, hp]
      | false => simpa [bind, Except.bind, pure, Except.pure, hp] using ih

end Loops

/-- Whether an expression has the value true on a date, as far as it can be computed. -/
def BoolExpr.attemptHolds (e : BoolExpr) (d : Date) : Except EvalFailure Bool :=
  (e.attempt d).map (· == some true)

/-- Collects the days of a window on which an expression holds. -/
def attemptWithin (start : Date) (count : Int) (e : BoolExpr) :
    Except EvalFailure (List Date) :=
  visitWindow (fun d found => do
    if ← e.attemptHolds d then return .yield (found ++ [d]) else return .yield found)
    start count []

/-- Goes through a window up to the first day on which an expression holds. -/
def attemptNext (start : Date) (count : Int) (e : BoolExpr) :
    Except EvalFailure (Option Date) :=
  visitWindow (fun d _ => do
    if ← e.attemptHolds d then return .done (some d) else return .yield none)
    start count none

section Searches

variable {start mid d : Date} {count : Int} {e : BoolExpr}

theorem BoolExpr.attemptHolds_eq_ok (e : BoolExpr) (d : Date) :
    e.attemptHolds d = .ok (e.holds d) := by
  rw [attemptHolds, e.attempt_eq_ok]
  rfl

theorem attemptWithin_eq_ok (start : Date) (count : Int) (e : BoolExpr) :
    attemptWithin start count e = .ok (findWithin start count e) := by
  rw [attemptWithin, visitWindow_eq_forIn]
  exact forIn_collect e.attemptHolds_eq_ok (window start count) []

theorem attemptNext_eq_ok (start : Date) (count : Int) (e : BoolExpr) :
    attemptNext start count e = .ok (findNext start count e) := by
  rw [attemptNext, visitWindow_eq_forIn, findNext, firstInWindow_eq_find?]
  exact forIn_first e.attemptHolds_eq_ok (window start count)

theorem mem_findWithin :
    d ∈ findWithin start count e ↔
      start ≤ d ∧ (d.ordinal : Int) - start.ordinal < count ∧ e.eval d = some true := by
  rw [findWithin, List.mem_filter, mem_window, BoolExpr.holds_eq_true_iff,
    Date.le_iff_ordinal_le, and_assoc]
  refine and_congr_right fun _ => and_congr_left fun _ => ?_
  omega

theorem findWithin_pairwise (start : Date) (count : Int) (e : BoolExpr) :
    (findWithin start count e).Pairwise fun d f => d.ordinal < f.ordinal :=
  (window_pairwise start count).filter _

/-- A search may be broken off after any number of days and taken up again there. -/
theorem findWithin_add {a : Nat} (h : start.shift a = .ok mid) (b : Nat) (e : BoolExpr) :
    findWithin start (a + b) e = findWithin start a e ++ findWithin mid b e := by
  rw [Date.shift_eq_ok_iff] at h
  apply eq_of_ordered (findWithin_pairwise _ _ _)
  · refine List.pairwise_append.mpr
      ⟨findWithin_pairwise _ _ _, findWithin_pairwise _ _ _, ?_⟩
    intro d hd f hf
    rw [mem_findWithin, Date.le_iff_ordinal_le] at hd hf
    omega
  · intro d
    simp only [List.mem_append, mem_findWithin, Date.le_iff_ordinal_le]
    constructor
    · rintro ⟨hle, hlt, hholds⟩
      rcases Int.lt_or_le (d.ordinal - start.ordinal) a with hbefore | hafter
      · exact .inl ⟨hle, hbefore, hholds⟩
      · exact .inr ⟨by omega, by omega, hholds⟩
    · rintro (⟨hle, hlt, hholds⟩ | ⟨hle, hlt, hholds⟩)
      · exact ⟨hle, by omega, hholds⟩
      · exact ⟨by omega, by omega, hholds⟩

end Searches

/-- Going from day to day, also at the end of the calendar, a search finds in order the days
of the window on which its expression has the value true; the search for the next day finds
the first of them. A window may be split in two. -/
theorem search_exact (start : Date) (count : Int) (e : BoolExpr) :
    attemptWithin start count e = .ok (findWithin start count e) ∧
    attemptNext start count e = .ok (findNext start count e) ∧
    (findWithin start count e).Pairwise (· < ·) ∧
    (∀ d, d ∈ findWithin start count e ↔ (start ≤ d ∧ d ≤ .last) ∧
      (d.ordinal : Int) - start.ordinal < count ∧ e.eval d = some true) ∧
    findNext start count e = (findWithin start count e).head? ∧
    ∀ (a b : Nat) (mid : Date), start.shift a = .ok mid →
      findWithin start (a + b) e = findWithin start a e ++ findWithin mid b e := by
  refine ⟨attemptWithin_eq_ok start count e, attemptNext_eq_ok start count e, ?_, ?_,
    findNext_eq_head? start count e, fun a b mid h => findWithin_add h b e⟩
  · exact (findWithin_pairwise start count e).imp Date.lt_iff_ordinal_lt.mpr
  · intro d
    have hlast : d ≤ .last := Date.le_iff_ordinal_le.mpr d.ordinal_mem.2
    rw [mem_findWithin, and_iff_left hlast]

/-- The window of the last two dates and what would come after them, split between the
two. -/
theorem search_exact_last :
    let before : Date := ⟨9999, 12, 30, by decide, by decide, by decide⟩
    let e := BoolExpr.statement .isWeekend
    before.shift (1 : Nat) = .ok .last ∧
      findWithin before ((1 : Nat) + (9 : Nat)) e =
        findWithin before (1 : Nat) e ++ findWithin .last (9 : Nat) e := by
  intro before e
  have hstep : before.shift (1 : Nat) = .ok .last :=
    nextDay_iff_shift.mp (.inMonth (by decide) rfl rfl rfl)
  exact ⟨hstep, (search_exact before 0 e).2.2.2.2.2 1 9 .last hstep⟩

end DateRules
