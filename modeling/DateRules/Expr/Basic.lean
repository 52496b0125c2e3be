/-!
# Expressions

The trees of date expressions. `IntExpr` has literals and calendar quantities as
leaves; `BoolExpr` has truth values and calendar statements as leaves, and holds
integer expressions through its comparisons. Trees are compared by value.

An `Expr` is a tree of either sort, for what treats the two alike.
-/

namespace DateRules

/-- The numbers that an expression can ask of a date. -/
inductive Quantity where
  | julian
  | year
  | month
  | day
  | yearDay
  | weekday
  | yearCount
  | monthCount
  | easter
deriving DecidableEq, Repr

namespace Quantity

def all : List Quantity :=
  [julian, year, month, day, yearDay, weekday, yearCount, monthCount, easter]

/-- The word that stands for the quantity. -/
def keyword : Quantity → String
  | julian => "julian"
  | year => "year"
  | month => "month"
  | day => "day"
  | yearDay => "yearday"
  | weekday => "weekday"
  | yearCount => "yearcount"
  | monthCount => "monthcount"
  | easter => "easter"

end Quantity

/-- The facts that an expression can ask of a date. -/
inductive Statement where
  | isLeapYear
  | isWeekend
  | isEaster
deriving DecidableEq, Repr

namespace Statement

def all : List Statement := [isLeapYear, isWeekend, isEaster]

/-- The word that stands for the statement. -/
def keyword : Statement → String
  | isLeapYear => "isleapyear"
  | isWeekend => "isweekend"
  | isEaster => "iseaster"

end Statement

/-- The operators between two integers. -/
inductive Arithmetic where
  | add
  | subtract
  | multiply
  /-- The quotient, rounded down. -/
  | divide
  /-- The remainder, with the sign of the divisor. -/
  | modulo
deriving DecidableEq, Repr

/-- The operators between two truth values. -/
inductive Connective where
  | and
  | or
  /-- Both sides have the same truth value. -/
  | same
deriving DecidableEq, Repr

/-- The ways to compare two integers. -/
inductive Comparison where
  | equal
  | greater
  | less
deriving DecidableEq, Repr

/-- Integer expressions. -/
inductive IntExpr where
  | literal (value : Int)
  | quantity (quantity : Quantity)
  | negate (operand : IntExpr)
  | arith (op : Arithmetic) (left right : IntExpr)
deriving DecidableEq, Repr

/-- Boolean expressions. -/
inductive BoolExpr where
  | literal (value : Bool)
  | statement (statement : Statement)
  | not (operand : BoolExpr)
  | connect (op : Connective) (left right : BoolExpr)
  | compare (op : Comparison) (left right : IntExpr)
deriving DecidableEq, Repr

/-- The two sorts of expressions. -/
inductive ExprSort where
  | int
  | bool
deriving DecidableEq, Repr

/-- An expression of either sort. -/
inductive Expr where
  | int (expr : IntExpr)
  | bool (expr : BoolExpr)
deriving DecidableEq, Repr

end DateRules
