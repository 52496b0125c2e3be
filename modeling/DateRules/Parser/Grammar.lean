import DateRules.Expr.Basic
import DateRules.Parser.Chain

/-!
# The parsers of the two sorts

Sums of products of signed operands make up the integer expressions;
equivalences of junctions of negated operands make up the boolean ones, where
the two junctions have one rank. An opening parenthesis begins either a boolean
group or the left side of a comparison. The group is tried first, and the
comparison is read from the same place if the group is refused.

`intPrimary` and `boolPrimary` take the number of parentheses that may still be
opened, so they are defined by recursion on it.
-/

namespace DateRules

namespace Parser

/-- The operators of sums. -/
def sumJoin : Lexeme → Option (IntExpr → IntExpr → IntExpr)
  | .operator .plus => some (.arith .add)
  | .operator .minus => some (.arith .subtract)
  | _ => none

/-- The operators of products. -/
def productJoin : Lexeme → Option (IntExpr → IntExpr → IntExpr)
  | .operator .times => some (.arith .multiply)
  | .operator .divide => some (.arith .divide)
  | .operator .modulo => some (.arith .modulo)
  | _ => none

/-- The signs. A plus leaves its operand as it is. -/
def signApply : Lexeme → Option (IntExpr → IntExpr)
  | .operator .plus => some id
  | .operator .minus => some .negate
  | _ => none

/-- The operators of equivalences. -/
def equivalenceJoin : Lexeme → Option (BoolExpr → BoolExpr → BoolExpr)
  | .operator .equal => some (.connect .same)
  | .operator .unequal => some fun l r => .not (.connect .same l r)
  | _ => none

/-- The operators of junctions. -/
def junctionJoin : Lexeme → Option (BoolExpr → BoolExpr → BoolExpr)
  | .operator .and => some (.connect .and)
  | .operator .or => some (.connect .or)
  | _ => none

/-- The negation. -/
def negationApply : Lexeme → Option (BoolExpr → BoolExpr)
  | .operator .not => some .not
  | _ => none

/-- The relations between integers. Three of them are the negations of the
comparisons that trees have. -/
def relationJoin : Lexeme → Option (IntExpr → IntExpr → BoolExpr)
  | .operator .equal => some (.compare .equal)
  | .operator .unequal => some fun l r => .not (.compare .equal l r)
  | .operator .atLeast => some fun l r => .not (.compare .less l r)
  | .operator .atMost => some fun l r => .not (.compare .greater l r)
  | .operator .greater => some (.compare .greater)
  | .operator .less => some (.compare .less)
  | _ => none

/-- The number that a run of digits writes. -/
def literalValue (digits : List Char) : Nat := Nat.ofDigitChars 10 digits 0

/-- Integer expressions over the given operands. -/
def intChain (primary : Parser IntExpr) : Parser IntExpr :=
  chainLeft (chainLeft (prefixed primary signApply) productJoin) sumJoin

/-- Boolean expressions over the given operands. -/
def boolChain (primary : Parser BoolExpr) : Parser BoolExpr :=
  chainLeft (chainLeft (prefixed primary negationApply) junctionJoin) equivalenceJoin

/-- The operands of integer expressions, where `group` reads what follows an
opening parenthesis. -/
def intOperand (group : Parser IntExpr) : Parser IntExpr :=
  fun tokens =>
    match tokens with
    | ⟨.opening, position⟩ :: rest =>
        match group rest with
        | .error stop => .error stop
        | .ok inner => .ok (inner.after ⟨.opening, position⟩)
    | ⟨.number digits, position⟩ :: rest =>
        if digits.length ≤ maxDigits then
          .ok (.single ⟨.number digits, position⟩ rest (.literal (literalValue digits)))
        else
          .error (.overlong ⟨digits.length⟩)
    | ⟨.keyword (.quantity q), position⟩ :: rest =>
        .ok (.single ⟨.keyword (.quantity q), position⟩ rest (.quantity q))
    | ⟨.keyword (.weekday w short), position⟩ :: rest =>
        .ok (.single ⟨.keyword (.weekday w short), position⟩ rest (.literal w.number))
    | next => .error (.unexpected .integer next.head?)

/-- The operands of integer expressions in at most `nesting` parentheses. -/
def intPrimary : Nat → Parser IntExpr
  | 0 => intOperand refuseNesting
  | nesting + 1 => intOperand (closed (intChain (intPrimary nesting)))

/-- Integer expressions in at most `nesting` parentheses. -/
def intExpr (nesting : Nat) : Parser IntExpr := intChain (intPrimary nesting)

/-- A comparison of two integer expressions. -/
def relation (side : Parser IntExpr) : Parser BoolExpr :=
  fun tokens =>
    match side tokens with
    | .error stop => .error stop
    | .ok left =>
        match h : left.rest with
        | [] => .error (.unexpected .comparison none)
        | token :: rest =>
            match relationJoin token.lexeme with
            | none => .error (.unexpected .comparison (some token))
            | some f =>
                match side rest with
                | .error stop => .error stop
                | .ok right =>
                    .ok ⟨f left.value right.value, right.rest, by
                      have hleft := left.rest_shorter
                      have hright := right.rest_shorter
                      rw [h, List.length_cons] at hleft
                      omega⟩

/-- The operands of boolean expressions, where `group` reads what follows an
opening parenthesis and `comparison` reads a comparison. -/
def boolOperand (group comparison : Parser BoolExpr) : Parser BoolExpr :=
  fun tokens =>
    match tokens with
    | ⟨.opening, position⟩ :: rest =>
        match group rest with
        | .ok inner => .ok (inner.after ⟨.opening, position⟩)
        | .error (.unexpected _ _) => comparison (⟨.opening, position⟩ :: rest)
        | .error stop => .error stop
    | ⟨.keyword (.truth value), position⟩ :: rest =>
        .ok (.single ⟨.keyword (.truth value), position⟩ rest (.literal value))
    | ⟨.keyword (.statement s), position⟩ :: rest =>
        .ok (.single ⟨.keyword (.statement s), position⟩ rest (.statement s))
    | next => comparison next

/-- The operands of boolean expressions in at most `nesting` parentheses. -/
def boolPrimary : Nat → Parser BoolExpr
  | 0 => boolOperand refuseNesting (relation (intExpr 0))
  | nesting + 1 =>
      boolOperand (closed (boolChain (boolPrimary nesting))) (relation (intExpr (nesting + 1)))

/-- Boolean expressions in at most `nesting` parentheses. -/
def boolExpr (nesting : Nat) : Parser BoolExpr := boolChain (boolPrimary nesting)

end Parser

end DateRules
