import DateRules.Expr.Eval
import DateRules.Text.Quoted

/-!
# Expressions read as the wrong sort

An integer expression has no truth value, and a boolean one is no number. The
error that says so describes the tree: each node by its name, with its named
parts in parentheses. A boolean node is refused as a number only after its two
operands, and at once where it has no two.
-/

namespace DateRules

/-- A part of a described node, with its name. -/
def describePart (name text : String) : String := name ++ "=" ++ text

/-- A described node: its name and its parts. -/
def describeNode (name : String) (parts : List String) : String :=
  name ++ "(" ++ ", ".intercalate parts ++ ")"

/-- A described node with two operands. -/
def describeBinary (name left right : String) : String :=
  describeNode name [describePart "left" left, describePart "right" right]

/-- A member of a described group of words: group, member and word. -/
def describeMember (group member word : String) : String :=
  "<" ++ group ++ "." ++ member ++ ": " ++ Text.quoted word ++ ">"

namespace Quantity

def memberName : Quantity → String
  | julian => "JULIAN"
  | year => "YEAR"
  | month => "MONTH"
  | day => "DAY"
  | yearDay => "YEAR_DAY"
  | weekday => "WEEKDAY"
  | yearCount => "YEAR_COUNT"
  | monthCount => "MONTH_COUNT"
  | easter => "EASTER"

end Quantity

namespace Statement

def memberName : Statement → String
  | isLeapYear => "IS_LEAP_YEAR"
  | isWeekend => "IS_WEEKEND"
  | isEaster => "IS_EASTER"

end Statement

namespace Arithmetic

def nodeName : Arithmetic → String
  | add => "Add"
  | subtract => "Subtract"
  | multiply => "Multiply"
  | divide => "Divide"
  | modulo => "Modulo"

end Arithmetic

namespace Connective

def nodeName : Connective → String
  | and => "And"
  | or => "Or"
  | same => "Same"

end Connective

namespace Comparison

def nodeName : Comparison → String
  | equal => "Equal"
  | greater => "Greater"
  | less => "Less"

end Comparison

/-- The description of an integer expression. -/
def IntExpr.describe : IntExpr → String
  | .literal value => describeNode "IntLiteral" [describePart "value" (toString value)]
  | .quantity q =>
      describeNode "QuantityRef"
        [describePart "quantity" (describeMember "Quantity" q.memberName q.keyword)]
  | .negate e => describeNode "Negate" [describePart "operand" e.describe]
  | .arith op l r => describeBinary op.nodeName l.describe r.describe

/-- The description of a boolean expression. -/
def BoolExpr.describe : BoolExpr → String
  | .literal value =>
      describeNode "BoolLiteral" [describePart "value" (if value then "True" else "False")]
  | .statement s =>
      describeNode "StatementRef"
        [describePart "statement" (describeMember "Statement" s.memberName s.keyword)]
  | .not e => describeNode "Not" [describePart "operand" e.describe]
  | .connect op l r => describeBinary op.nodeName l.describe r.describe
  | .compare op l r => describeBinary op.nodeName l.describe r.describe

namespace Expr

def describe : Expr → String
  | int e => e.describe
  | bool e => e.describe

end Expr

/-- An expression was read as the sort that it does not have. A missing
expression has neither, and is no expression at all. -/
inductive SortError where
  | notExpression
  | notInteger (expr : Expr)
  | notBoolean (expr : Option Expr)
  /-- A node of the given name has no two operands. -/
  | noOperands (node : String)
deriving DecidableEq, Repr

namespace SortError

def message : SortError → String
  | notExpression => "Not an expression node: None"
  | notInteger e => "Not an integer expression: " ++ e.describe
  | notBoolean (some e) => "Not a boolean expression: " ++ e.describe
  | notBoolean none => "Not a boolean expression: None"
  | noOperands node => "'" ++ node ++ "' object has no attribute 'left'"

end SortError

/-- What a boolean node with two operands is as a number: none if an operand is
absent, and otherwise it is refused. -/
def BoolExpr.refuseUnlessAbsent (e : BoolExpr) :
    Option Int → Option Int → Except SortError (Option Int)
  | some _, some _ => .error (.notInteger (.bool e))
  | _, _ => .ok none

/-- A boolean expression as a number. It is none, but an absent operand comes before
that. -/
def BoolExpr.evalInt (d : Date) : BoolExpr → Except SortError (Option Int)
  | .literal _ => .error (.noOperands "BoolLiteral")
  | .statement _ => .error (.noOperands "StatementRef")
  | .not _ => .error (.noOperands "Not")
  | .connect op l r => do
      let left ← l.evalInt d
      let right ← r.evalInt d
      (connect op l r).refuseUnlessAbsent left right
  | .compare op l r => (compare op l r).refuseUnlessAbsent (l.eval d) (r.eval d)

namespace Expr

/-- The number that an expression stands for. -/
def evalInt (d : Date) : Expr → Except SortError (Option Int)
  | int e => .ok (e.eval d)
  | bool e => e.evalInt d

/-- The truth value that an expression stands for. -/
def evalBool (d : Date) : Expr → Except SortError (Option Bool)
  | bool e => .ok (e.eval d)
  | int e => .error (.notBoolean (some (int e)))

/-- Whether an expression has the value true on a date. -/
def holds (d : Date) (e : Expr) : Except SortError Bool :=
  (e.evalBool d).map (· == some true)

end Expr

end DateRules
