import DateRules.Expr.Basic

/-!
# Expressions as source text

`IntExpr.render` and `BoolExpr.render` write a tree as source text. Every
operator between two operands stands in parentheses with its operands, and the
operand of a sign or of a negation does so if it begins with one itself, since
at most one of these may precede an operand.
-/

namespace DateRules

namespace Arithmetic

def symbol : Arithmetic → String
  | add => "+"
  | subtract => "-"
  | multiply => "*"
  | divide => "/"
  | modulo => "%"

end Arithmetic

namespace Connective

def symbol : Connective → String
  | and => "&&"
  | or => "||"
  | same => "=="

end Connective

namespace Comparison

def symbol : Comparison → String
  | equal => "=="
  | greater => ">"
  | less => "<"

end Comparison

/-- Two operands and the operator between them, in parentheses. -/
def renderBinary (symbol left right : String) : String :=
  "(" ++ left ++ " " ++ symbol ++ " " ++ right ++ ")"

/-- The source text of an integer expression. -/
def IntExpr.render : IntExpr → String
  | .literal value => toString value
  | .quantity q => q.keyword
  | .negate (.negate e) => "-(" ++ (negate e).render ++ ")"
  | .negate e => "-" ++ e.render
  | .arith op l r => renderBinary op.symbol l.render r.render

/-- The source text of a boolean expression. -/
def BoolExpr.render : BoolExpr → String
  | .literal value => if value then "true" else "false"
  | .statement s => s.keyword
  | .not (.not e) => "!(" ++ (BoolExpr.not e).render ++ ")"
  | .not e => "!" ++ e.render
  | .connect op l r => renderBinary op.symbol l.render r.render
  | .compare op l r => renderBinary op.symbol l.render r.render

/-- The source text of an expression. -/
def Expr.render : Expr → String
  | .int e => e.render
  | .bool e => e.render

end DateRules
