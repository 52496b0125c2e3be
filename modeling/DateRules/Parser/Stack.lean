import DateRules.Token.Basic

/-!
# Call stacks

The parsers call themselves for every parenthesis that is open, and the calls that may be
open at once are counted. A parenthesis takes four to six calls, by the sort of what is in
it and the operators that stand before it, and whoever asks for an expression has calls
open already. So how many parentheses may be open at once is no fixed number. It is a
number for each text and each caller, and a `CallStack` says which one.
-/

namespace DateRules

/-- What a caller leaves of the stack: how many parentheses may be open at once while the
words of a text are read as an expression of some sort. There is room for 130: of the 1000 calls
that may be open no parenthesis takes more than six, and no caller has 200 open itself. -/
structure CallStack where
  nesting : ExprSort → List Lexeme → Nat
  ample : ∀ sort words, 130 ≤ nesting sort words

namespace CallStack

/-- A few parentheses fit on every stack. -/
theorem le_nesting {n : Nat} (h : n ≤ 130) (stack : CallStack) (sort : ExprSort)
    (words : List Lexeme) : n ≤ stack.nesting sort words :=
  Nat.le_trans h (stack.ample sort words)

/-- The stack with the same room for every text. -/
def withRoom (n : Nat) (h : 130 ≤ n) : CallStack := ⟨fun _ _ => n, fun _ _ => h⟩

/-- The stack with no more room than every stack has. -/
def least : CallStack := withRoom 130 (Nat.le_refl 130)

end CallStack

end DateRules
