import DateRules.Calendar.Window
import DateRules.Expr.Eval

/-!
# Searching a window of days

`findWithin` lists the days of a window on which an expression holds, and
`findNext` gives the first of them. Days on which the expression has no value
do not count.
-/

namespace DateRules

/-- The days of a window on which an expression holds, in order. -/
def findWithin (start : Date) (count : Int) (e : BoolExpr) : List Date :=
  (window start count).filter e.holds

/-- The first day of a window on which an expression holds. -/
def findNext (start : Date) (count : Int) (e : BoolExpr) : Option Date :=
  firstInWindow start count e.holds

theorem findNext_eq_head? (start : Date) (count : Int) (e : BoolExpr) :
    findNext start count e = (findWithin start count e).head? := by
  rw [findNext, findWithin, firstInWindow_eq_find?, List.head?_filter]

end DateRules
