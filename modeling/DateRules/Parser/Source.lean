import DateRules.Expr.Height
import DateRules.Parser.Grammar
import DateRules.Parser.Stack

/-!
# Expressions from source text

`IntExpr.read` and `BoolExpr.read` turn a whole text into a tree. The text is
split into tokens, the tokens are read by the grammar of the sort, nothing may
be left over, and the tree may have at most `maxHeight` levels. How many
parentheses may be open at once is told by the stack on which the text is read.

`parse?` forgets why a text is refused and `diagnose` forgets the tree of an
accepted one. Both still fail for a number that is too long to be read.
-/

namespace DateRules

/-- The position of a token, or of the end of the text where there is none. -/
def positionOf (textEnd : Nat) : Option Token → Nat
  | some token => token.position
  | none => textEnd

/-- What a stopped parser says about a text with the given end. -/
def Stop.toFailure (textEnd : Nat) : Stop → ParseFailure
  | unexpected wanted next =>
      .refused ⟨.unexpected wanted (next.map Token.lexeme), positionOf textEnd next⟩
  | nestedTooDeeply next => .refused ⟨.nestedTooDeeply, positionOf textEnd next⟩
  | overlong literal => .overlong literal

namespace Parser

variable {α : Type}

/-- Reads a whole token list. -/
def whole (parser : Parser α) (tokens : List Token) : Except Stop α :=
  match parser tokens with
  | .error stop => .error stop
  | .ok parsed =>
      match parsed.rest with
      | [] => .ok parsed.value
      | token :: _ => .error (.unexpected .endOfInput (some token))

/-- Reads a whole text, where `room` tells how many parentheses may be open at once
and `toExpr` the tree of a value. -/
def readText (parser : Nat → Parser α) (room : List Lexeme → Nat) (toExpr : α → Expr)
    (text : String) : Except ParseFailure α :=
  match tokenize text with
  | .error stray => .error (.refused ⟨.unexpectedCharacter stray.char.toNat, stray.position⟩)
  | .ok tokenized =>
      match (parser (room (lexemes tokenized.tokens))).whole tokenized.tokens with
      | .error stop => .error (stop.toFailure tokenized.textEnd)
      | .ok value =>
          if (toExpr value).depth ≤ maxHeight then .ok value
          else .error (.refused ⟨.tooManyLevels, 0⟩)

end Parser

/-- The tree of an accepted text, and none of a refused one. -/
def acceptedOf {α : Type} : Except ParseFailure α → Except OverlongLiteral (Option α)
  | .ok value => .ok (some value)
  | .error (.refused _) => .ok none
  | .error (.overlong literal) => .error literal

/-- The diagnosis of a refused text, and none of an accepted one. -/
def refusalOf {α : Type} : Except ParseFailure α → Except OverlongLiteral (Option Diagnosis)
  | .ok _ => .ok none
  | .error (.refused diagnosis) => .ok (some diagnosis)
  | .error (.overlong literal) => .error literal

namespace IntExpr

/-- Reads an integer expression. -/
def read (stack : CallStack) (text : String) : Except ParseFailure IntExpr :=
  Parser.readText Parser.intExpr (stack.nesting .int) .int text

/-- The integer expression that a text writes, if it writes one. -/
def parse? (stack : CallStack) (text : String) : Except OverlongLiteral (Option IntExpr) :=
  acceptedOf (read stack text)

/-- Why a text is no integer expression, if it is none. -/
def diagnose (stack : CallStack) (text : String) :
    Except OverlongLiteral (Option Diagnosis) :=
  refusalOf (read stack text)

end IntExpr

namespace BoolExpr

/-- Reads a boolean expression. -/
def read (stack : CallStack) (text : String) : Except ParseFailure BoolExpr :=
  Parser.readText Parser.boolExpr (stack.nesting .bool) .bool text

/-- The boolean expression that a text writes, if it writes one. -/
def parse? (stack : CallStack) (text : String) : Except OverlongLiteral (Option BoolExpr) :=
  acceptedOf (read stack text)

/-- Why a text is no boolean expression, if it is none. -/
def diagnose (stack : CallStack) (text : String) :
    Except OverlongLiteral (Option Diagnosis) :=
  refusalOf (read stack text)

end BoolExpr

/-- A name that names no sort of expressions. -/
structure UnknownSort where
  name : String
deriving DecidableEq, Repr

def UnknownSort.message (s : UnknownSort) : String :=
  "Unknown expression kind: " ++ s.name

namespace ExprSort

/-- The sort with a given name. -/
def ofName (name : String) : Except UnknownSort ExprSort :=
  if name = "bool" then .ok bool
  else if name = "int" then .ok int
  else .error ⟨name⟩

end ExprSort

namespace Expr

/-- The expression of a sort that a text writes, if it writes one. -/
def parse? (stack : CallStack) (sort : ExprSort) (text : String) :
    Except OverlongLiteral (Option Expr) :=
  match sort with
  | .int => (IntExpr.parse? stack text).map (Option.map int)
  | .bool => (BoolExpr.parse? stack text).map (Option.map bool)

/-- Why a text is no expression of a sort, if it is none. -/
def diagnose (stack : CallStack) (sort : ExprSort) (text : String) :
    Except OverlongLiteral (Option Diagnosis) :=
  match sort with
  | .int => IntExpr.diagnose stack text
  | .bool => BoolExpr.diagnose stack text

end Expr

end DateRules
