import DateRules.Expr.Eval
import DateRules.Expr.Height

/-!
# Where expressions have no value

An expression has no value on a date exactly if it divides by zero there:
somewhere in it, on whatever side of whatever operator, is a quotient or a
remainder whose right operand has the value 0 (`IntExpr.eval_eq_none_iff`,
`BoolExpr.eval_eq_none_iff`).

`IntExpr.attempt` and `BoolExpr.attempt` evaluate with the computations that may
fail: the search for Easter, which may leave the range of dates, and the division,
which has no result for the divisor 0. They never fail on a date and give the value
(`IntExpr.attempt_eq_ok`, `BoolExpr.attempt_eq_ok`).
-/

namespace DateRules

/-- The ways in which the steps of an evaluation may fail. -/
inductive EvalFailure where
  | outOfRange (error : RangeError)
  | zeroDivisor
deriving DecidableEq, Repr

/-- The Easter Sunday of a date's year, which may lie outside the range of dates. -/
def Date.attemptEaster (d : Date) : Except EvalFailure Date :=
  (orthodoxEaster d.year).mapError .outOfRange

/-- The number that a quantity stands for, as far as it can be computed. -/
def Quantity.attempt (d : Date) : Quantity → Except EvalFailure Int
  | .easter => do
      let sunday ← d.attemptEaster
      return (d.ordinal : Int) - sunday.ordinal
  | q => .ok (q.value d)

/-- The truth of a statement, as far as it can be computed. -/
def Statement.attempt (d : Date) : Statement → Except EvalFailure Bool
  | .isEaster => do
      let sunday ← d.attemptEaster
      return sunday == d
  | s => .ok (s.holds d)

namespace Arithmetic

/-- The operators that have no result for the right operand 0. -/
def IsPartial (op : Arithmetic) : Prop := op = divide ∨ op = modulo

instance (op : Arithmetic) : Decidable op.IsPartial :=
  inferInstanceAs (Decidable (_ ∨ _))

/-- The result of an operator, which fails for the divisor 0. -/
def attempt (op : Arithmetic) (a b : Int) : Except EvalFailure Int :=
  match op with
  | add => .ok (a + b)
  | subtract => .ok (a - b)
  | multiply => .ok (a * b)
  | divide => if b = 0 then .error .zeroDivisor else .ok (a.fdiv b)
  | modulo => if b = 0 then .error .zeroDivisor else .ok (a.fmod b)

theorem apply_eq_none_iff {op : Arithmetic} {a b : Int} :
    op.apply a b = none ↔ op.IsPartial ∧ b = 0 := by
  cases op <;> simp [apply, IsPartial]

theorem attempt_eq_ok {op : Arithmetic} {a b : Int} (h : ¬ (op.IsPartial ∧ b = 0)) :
    (op.attempt a b).map some = .ok (op.apply a b) := by
  cases op with
  | add => rfl
  | subtract => rfl
  | multiply => rfl
  | divide =>
      have hb : b ≠ 0 := fun hb => h ⟨.inl rfl, hb⟩
      simp only [attempt, apply, if_neg hb]
      rfl
  | modulo =>
      have hb : b ≠ 0 := fun hb => h ⟨.inr rfl, hb⟩
      simp only [attempt, apply, if_neg hb]
      rfl

end Arithmetic

/-- Evaluates an integer expression step by step. Both operands are evaluated before
their values are looked at, and the divisor is looked at before the division. -/
def IntExpr.attempt (d : Date) : IntExpr → Except EvalFailure (Option Int)
  | .literal value => .ok (some value)
  | .quantity q => (q.attempt d).map some
  | .negate e => do
      let value ← e.attempt d
      return value.map (- ·)
  | .arith op l r => do
      let left ← l.attempt d
      let right ← r.attempt d
      match left, right with
      | some a, some b =>
          if op.IsPartial ∧ b = 0 then .ok none else (op.attempt a b).map some
      | _, _ => .ok none

/-- Evaluates a boolean expression step by step. Both operands are evaluated before
their values are looked at. -/
def BoolExpr.attempt (d : Date) : BoolExpr → Except EvalFailure (Option Bool)
  | .literal value => .ok (some value)
  | .statement s => (s.attempt d).map some
  | .not e => do
      let value ← e.attempt d
      return value.map (! ·)
  | .connect op l r => do
      let left ← l.attempt d
      let right ← r.attempt d
      match left, right with
      | some a, some b => .ok (some (op.apply a b))
      | _, _ => .ok none
  | .compare op l r => do
      let left ← l.attempt d
      let right ← r.attempt d
      match left, right with
      | some a, some b => .ok (some (op.apply a b))
      | _, _ => .ok none

section Success

variable (d : Date)

theorem Date.attemptEaster_eq_ok : d.attemptEaster = .ok d.easter := by
  rw [attemptEaster, d.orthodoxEaster_year]
  rfl

theorem Quantity.attempt_eq_ok (q : Quantity) : q.attempt d = .ok (q.value d) := by
  cases q with
  | easter =>
      rw [attempt, d.attemptEaster_eq_ok]
      rfl
  | _ => rfl

theorem Statement.attempt_eq_ok (s : Statement) : s.attempt d = .ok (s.holds d) := by
  cases s with
  | isEaster =>
      rw [attempt, d.attemptEaster_eq_ok]
      rfl
  | _ => rfl

theorem IntExpr.attempt_eq_ok (e : IntExpr) : e.attempt d = .ok (e.eval d) := by
  induction e with
  | literal value => rfl
  | quantity q =>
      rw [attempt, q.attempt_eq_ok]
      rfl
  | negate e ih =>
      rw [attempt, ih]
      rfl
  | arith op l r ihl ihr =>
      rw [attempt, ihl, ihr, eval]
      cases l.eval d with
      | none => rfl
      | some a =>
          cases r.eval d with
          | none => rfl
          | some b =>
              simp only [bind, Except.bind]
              by_cases hzero : op.IsPartial ∧ b = 0
              · rw [if_pos hzero, Arithmetic.apply_eq_none_iff.mpr hzero]
              · rw [if_neg hzero, Arithmetic.attempt_eq_ok hzero]

theorem BoolExpr.attempt_eq_ok (e : BoolExpr) : e.attempt d = .ok (e.eval d) := by
  induction e with
  | literal value => rfl
  | statement s =>
      rw [attempt, s.attempt_eq_ok]
      rfl
  | not e ih =>
      rw [attempt, ih]
      rfl
  | connect op l r ihl ihr =>
      rw [attempt, ihl, ihr, eval]
      cases l.eval d <;> cases r.eval d <;> rfl
  | compare op l r =>
      rw [attempt, l.attempt_eq_ok, r.attempt_eq_ok, eval]
      cases l.eval d <;> cases r.eval d <;> rfl

end Success

namespace Expr

/-- An expression is part of another one, or is that one itself. -/
inductive PartOf (part : Expr) : Expr → Prop
  | self : PartOf part part
  | child {child e : Expr} (hchild : child ∈ e.children) (h : PartOf part child) : PartOf part e

/-- Somewhere in an expression is a quotient or a remainder whose right operand has
the value 0 on a date. -/
def DividesByZero (d : Date) (e : Expr) : Prop :=
  ∃ op l r, op.IsPartial ∧ PartOf (int (.arith op l r)) e ∧ r.eval d = some 0

variable {d : Date}

theorem dividesByZero_arith {op : Arithmetic} {l r : IntExpr} :
    DividesByZero d (int (.arith op l r)) ↔
      op.IsPartial ∧ r.eval d = some 0 ∨ DividesByZero d (int l) ∨ DividesByZero d (int r) := by
  constructor
  · rintro ⟨op', l', r', hop, hpart, hzero⟩
    cases hpart with
    | self => exact .inl ⟨hop, hzero⟩
    | child hchild hpart =>
        have hdivides : DividesByZero d _ := ⟨op', l', r', hop, hpart, hzero⟩
        simp only [children, List.mem_cons, List.not_mem_nil, or_false] at hchild
        rcases hchild with rfl | rfl
        · exact .inr (.inl hdivides)
        · exact .inr (.inr hdivides)
  · rintro (⟨hop, hzero⟩ | ⟨op', l', r', hop, hpart, hzero⟩ | ⟨op', l', r', hop, hpart, hzero⟩)
    · exact ⟨op, l, r, hop, .self, hzero⟩
    · exact ⟨op', l', r', hop, .child (by simp [children]) hpart, hzero⟩
    · exact ⟨op', l', r', hop, .child (by simp [children]) hpart, hzero⟩

/-- What is no operator between two integers divides by zero only in its parts. -/
theorem dividesByZero_of_ne {e : Expr} (h : ∀ op l r, e ≠ int (.arith op l r)) :
    DividesByZero d e ↔ ∃ child ∈ e.children, DividesByZero d child := by
  constructor
  · rintro ⟨op, l, r, hop, hpart, hzero⟩
    cases hpart with
    | self => exact absurd rfl (h op l r)
    | child hchild hpart => exact ⟨_, hchild, op, l, r, hop, hpart, hzero⟩
  · rintro ⟨child, hchild, op, l, r, hop, hpart, hzero⟩
    exact ⟨op, l, r, hop, .child hchild hpart, hzero⟩

end Expr

section Absence

open DateRules.Expr

variable {d : Date}

theorem IntExpr.eval_arith_eq_none_iff {op : Arithmetic} {l r : IntExpr} :
    (arith op l r).eval d = none ↔
      op.IsPartial ∧ r.eval d = some 0 ∨ l.eval d = none ∨ r.eval d = none := by
  rw [eval]
  cases l.eval d with
  | none => simp
  | some a =>
      cases r.eval d with
      | none => simp
      | some b => simp [Arithmetic.apply_eq_none_iff]

theorem BoolExpr.eval_connect_eq_none_iff {op : Connective} {l r : BoolExpr} :
    (connect op l r).eval d = none ↔ l.eval d = none ∨ r.eval d = none := by
  rw [eval]
  cases l.eval d <;> cases r.eval d <;> simp

theorem BoolExpr.eval_compare_eq_none_iff {op : Comparison} {l r : IntExpr} :
    (compare op l r).eval d = none ↔ l.eval d = none ∨ r.eval d = none := by
  rw [eval]
  cases l.eval d <;> cases r.eval d <;> simp

theorem IntExpr.eval_eq_none_iff (e : IntExpr) :
    e.eval d = none ↔ DividesByZero d (int e) := by
  induction e with
  | literal value =>
      rw [dividesByZero_of_ne (by simp)]
      simp [eval, children]
  | quantity q =>
      rw [dividesByZero_of_ne (by simp)]
      simp [eval, children]
  | negate e ih =>
      rw [dividesByZero_of_ne (by simp), eval, Option.map_eq_none_iff, ih]
      simp [children]
  | arith op l r ihl ihr => rw [dividesByZero_arith, eval_arith_eq_none_iff, ihl, ihr]

theorem BoolExpr.eval_eq_none_iff (e : BoolExpr) :
    e.eval d = none ↔ DividesByZero d (bool e) := by
  induction e with
  | literal value =>
      rw [dividesByZero_of_ne (by simp)]
      simp [eval, children]
  | statement s =>
      rw [dividesByZero_of_ne (by simp)]
      simp [eval, children]
  | not e ih =>
      rw [dividesByZero_of_ne (by simp), eval, Option.map_eq_none_iff, ih]
      simp [children]
  | connect op l r ihl ihr =>
      rw [dividesByZero_of_ne (by simp), eval_connect_eq_none_iff, ihl, ihr]
      simp [children]
  | compare op l r =>
      rw [dividesByZero_of_ne (by simp), eval_compare_eq_none_iff, l.eval_eq_none_iff,
        r.eval_eq_none_iff]
      simp [children]

end Absence

end DateRules
