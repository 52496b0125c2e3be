import DateRules.Parser.Diagnosis

/-!
# Parsers on token lists

A `Parser` reads a value from the front of a token list. On success it returns
the tokens that it has not read, which are fewer than it was given, so every
repetition of a parser ends.

`chainLeft operand join` reads a chain of operands with operators between them
and groups it to the left.
-/

namespace DateRules

/-- The ways in which a parser stops on a token list. -/
inductive Stop where
  /-- The grammar asks for something else than what comes next. -/
  | unexpected (wanted : Expectation) (next : Option Token)
  /-- Too many parentheses are open at the given token. -/
  | nestedTooDeeply (next : Option Token)
  /-- A literal was met that has too many digits. -/
  | overlong (literal : OverlongLiteral)
deriving DecidableEq, Repr

/-- A value read from the front of a token list, and the tokens after it. -/
structure Parsed (α : Type) (tokens : List Token) where
  value : α
  rest : List Token
  rest_shorter : rest.length < tokens.length

/-- The result of a parser on a token list. -/
abbrev ParseResult (α : Type) (tokens : List Token) := Except Stop (Parsed α tokens)

/-- A function that reads a value from the front of a token list. -/
abbrev Parser (α : Type) := (tokens : List Token) → ParseResult α tokens

namespace Parsed

/-- The same value read from a longer list. -/
def widen {α : Type} {inner outer : List Token} (p : Parsed α inner)
    (h : inner.length ≤ outer.length) : Parsed α outer :=
  ⟨p.value, p.rest, Nat.lt_of_lt_of_le p.rest_shorter h⟩

/-- A value that the first token is by itself. -/
def single {α : Type} (token : Token) (rest : List Token) (value : α) :
    Parsed α (token :: rest) :=
  ⟨value, rest, Nat.lt_succ_self _⟩

/-- A value that was read after a token, as read from that token on. -/
def after {α : Type} {rest : List Token} (token : Token) (p : Parsed α rest) :
    Parsed α (token :: rest) :=
  p.widen (Nat.le_succ _)

/-- Another value read from the same tokens. -/
def map {α β : Type} {tokens : List Token} (f : α → β) (p : Parsed α tokens) :
    Parsed β tokens :=
  ⟨f p.value, p.rest, p.rest_shorter⟩

end Parsed

namespace Parser

variable {α β : Type}

/-- Continues a chain: as long as an operator that joins two operands comes
next, the operand after it is read and joined on the right. -/
def continueChain (operand : Parser α) (join : Lexeme → Option (α → α → α))
    {tokens : List Token} (left : Parsed α tokens) : ParseResult α tokens :=
  match h : left.rest with
  | [] => .ok left
  | token :: rest =>
      match join token.lexeme with
      | none => .ok left
      | some f =>
          match operand rest with
          | .error stop => .error stop
          | .ok right =>
              continueChain operand join
                ⟨f left.value right.value, right.rest, by
                  have hleft := left.rest_shorter
                  have hright := right.rest_shorter
                  rw [h, List.length_cons] at hleft
                  omega⟩
termination_by left.rest.length
decreasing_by
  have hright := right.rest_shorter
  rw [h, List.length_cons]
  omega

/-- Reads operands with operators between them. -/
def chainLeft (operand : Parser α) (join : Lexeme → Option (α → α → α)) : Parser α :=
  fun tokens =>
    match operand tokens with
    | .error stop => .error stop
    | .ok first => continueChain operand join first

/-- Reads an operand with at most one operator before it. -/
def prefixed (operand : Parser α) (apply : Lexeme → Option (α → α)) : Parser α :=
  fun tokens =>
    match tokens with
    | [] => operand []
    | token :: rest =>
        match apply token.lexeme with
        | none => operand (token :: rest)
        | some f =>
            match operand rest with
            | .error stop => .error stop
            | .ok inner => .ok ((inner.map f).after token)

/-- Reads what follows an opening parenthesis, up to and with the closing one. -/
def closed (inside : Parser α) : Parser α :=
  fun tokens =>
    match inside tokens with
    | .error stop => .error stop
    | .ok inner =>
        match h : inner.rest with
        | ⟨.closing, _⟩ :: rest =>
            .ok ⟨inner.value, rest, by
              have hinner := inner.rest_shorter
              rw [h, List.length_cons] at hinner
              omega⟩
        | next => .error (.unexpected .closing next.head?)

/-- Reads nothing: no further parenthesis is followed. -/
def refuseNesting : Parser α := fun tokens => .error (.nestedTooDeeply tokens.head?)

end Parser

end DateRules
