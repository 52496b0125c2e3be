import DateRules.Calendar.Easter
import DateRules.Expr.Basic

/-!
# The value of expressions

The value of an expression on a date may be absent: a division by zero has no
value, and neither has any expression around it, whatever its other operands
are. `IntExpr.eval` and `BoolExpr.eval` give the value, `BoolExpr.holds` takes
an absent truth value for false.
-/

namespace DateRules

namespace Quantity

/-- The number that a quantity stands for on a date. -/
def value (q : Quantity) (d : Date) : Int :=
  match q with
  | julian => d.modifiedJulianDay
  | year => d.year
  | month => d.month
  | day => d.day
  | yearDay => d.dayOfYear
  | weekday => d.weekday
  | yearCount => d.yearCount
  | monthCount => d.monthCount
  | easter => d.easterOffset

end Quantity

namespace Statement

/-- Whether a statement is true of a date. -/
def holds (s : Statement) (d : Date) : Bool :=
  match s with
  | isLeapYear => d.isLeap
  | isWeekend => d.isWeekend
  | isEaster => d.isEaster

end Statement

namespace Arithmetic

/-- The result of an operator. Quotients are rounded down and remainders take
the sign of the divisor; neither exists for the divisor 0. -/
def apply (op : Arithmetic) (a b : Int) : Option Int :=
  match op with
  | add => some (a + b)
  | subtract => some (a - b)
  | multiply => some (a * b)
  | divide => if b = 0 then none else some (a.fdiv b)
  | modulo => if b = 0 then none else some (a.fmod b)

end Arithmetic

namespace Connective

def apply (op : Connective) (a b : Bool) : Bool :=
  match op with
  | and => a && b
  | or => a || b
  | same => a == b

end Connective

namespace Comparison

def apply (op : Comparison) (a b : Int) : Bool :=
  match op with
  | equal => a == b
  | greater => b < a
  | less => a < b

end Comparison

/-- The value of an integer expression on a date. -/
def IntExpr.eval (d : Date) : IntExpr → Option Int
  | .literal value => some value
  | .quantity q => some (q.value d)
  | .negate e => (e.eval d).map (- ·)
  | .arith op l r =>
      match l.eval d, r.eval d with
      | some a, some b => op.apply a b
      | _, _ => none

namespace BoolExpr

/-- The truth value of a boolean expression on a date. -/
def eval (d : Date) : BoolExpr → Option Bool
  | literal value => some value
  | statement s => some (s.holds d)
  | not e => (e.eval d).map (! ·)
  | connect op l r =>
      match l.eval d, r.eval d with
      | some a, some b => some (op.apply a b)
      | _, _ => none
  | compare op l r =>
      match l.eval d, r.eval d with
      | some a, some b => some (op.apply a b)
      | _, _ => none

/-- Whether an expression has the value true on a date. -/
def holds (e : BoolExpr) (d : Date) : Bool := e.eval d == some true

theorem holds_eq_true_iff {e : BoolExpr} {d : Date} :
    e.holds d = true ↔ e.eval d = some true := by
  simp [holds]

end BoolExpr

end DateRules
