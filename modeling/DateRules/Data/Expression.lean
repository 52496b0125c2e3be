import DateRules.Data.Value
import DateRules.Parser.Source

/-!
# Expressions in data

A value that is no text is no expression of either sort; the diagnosis names
its kind. Nor is a broken text one, since a code of no character begins no
token.
-/

namespace DateRules

namespace Value

/-- Why a broken text is no expression: its first character or code that begins
no token. -/
def diagnoseBroken (codes : Text.Codes) : Diagnosis :=
  let intact := codes.intact
  match tokenizeFrom 0 intact with
  | .error stray => ⟨.unexpectedCharacter stray.char.toNat, stray.position⟩
  | .ok _ =>
      ⟨.unexpectedCharacter (codes[intact.length]?.getD Text.replacementChar.toNat),
        intact.length⟩

/-- Why a value is no expression of a sort, if it is none. -/
def diagnose (stack : CallStack) (sort : ExprSort) (v : Value) :
    Except OverlongLiteral (Option Diagnosis) :=
  match v with
  | text source => Expr.diagnose stack sort source
  | brokenText codes => .ok (some (diagnoseBroken codes))
  | other => .ok (some ⟨.notText other.kindName, 0⟩)

/-- The expression of a sort that a value is, if it is one. -/
def parse? (stack : CallStack) (sort : ExprSort) (v : Value) :
    Except OverlongLiteral (Option Expr) :=
  match v with
  | text source => Expr.parse? stack sort source
  | _ => .ok none

/-- Whether a value is an expression of a sort, and the report of why it is
none. -/
def validate (stack : CallStack) (sort : ExprSort) (v : Value) :
    Except OverlongLiteral (Bool × Option String) :=
  match v.diagnose stack sort with
  | .ok none => .ok (true, none)
  | .ok (some diagnosis) => .ok (false, some diagnosis.report)
  | .error literal => .error literal

end Value

end DateRules
