import DateRules.Token.Basic

/-!
# The grammar of expressions

A language relates the words that it has, which are lists of lexemes, to the
trees that they write. The repetition `T {op T}` of a grammar is
`Chain`, which groups to the left, and the option `[op] T` is `Prefixed`.

`IntSentence` and `BoolSentence` are the integer and the boolean expressions.
Both are chains of chains of operands that may have one operator before them,
and `IntOperand` and `BoolOperand` are the operands. The tables of operators
are spelled out here and do not refer to any parser. `IntOperand.least` and
`BoolOperand.least` are the inductions over all derivations.
-/

namespace DateRules

namespace Grammar

/-- The words of a language, each with the trees that it writes. -/
abbrev Phrases (α : Type) := List Lexeme → α → Prop

/-- Operators before an operand, each with what it makes of the operand. -/
abbrev Prefixes (α : Type) := Lexeme → (α → α) → Prop

/-- Operators between two operands, each with what it makes of them. -/
abbrev Joins (α : Type) := Lexeme → (α → α → α) → Prop

section Combinations

variable {α : Type}

/-- The part `{op T}` of a chain. The tree before it goes in and the tree of the
whole chain comes out, so that chains group to the left. -/
inductive Repeated (Operand : Phrases α) (Join : Joins α) : α → List Lexeme → α → Prop
  | done (t : α) : Repeated Operand Join t [] t
  | next {x : Lexeme} {f : α → α → α} {v w : List Lexeme} {l r t : α} (join : Join x f)
      (operand : Operand v r) (rest : Repeated Operand Join (f l r) w t) :
      Repeated Operand Join l (x :: (v ++ w)) t

/-- The chain `T {op T}`. -/
inductive Chain (Operand : Phrases α) (Join : Joins α) : Phrases α
  | mk {v w : List Lexeme} {l t : α} (first : Operand v l)
      (rest : Repeated Operand Join l w t) : Chain Operand Join (v ++ w) t

/-- The operand `[op] T`. -/
inductive Prefixed (Operand : Phrases α) (Apply : Prefixes α) : Phrases α
  | bare {w : List Lexeme} {t : α} (operand : Operand w t) : Prefixed Operand Apply w t
  | applied {x : Lexeme} {f : α → α} {w : List Lexeme} {t : α} (apply : Apply x f)
      (operand : Operand w t) : Prefixed Operand Apply (x :: w) (f t)

variable {Operand : Phrases α} {Join : Joins α}

theorem Chain.single {w : List Lexeme} {t : α} (h : Operand w t) : Chain Operand Join w t := by
  have hchain : Chain Operand Join (w ++ []) t := .mk h (.done t)
  rwa [List.append_nil] at hchain

theorem Chain.pair {x : Lexeme} {f : α → α → α} {v w : List Lexeme} {l r : α}
    (hl : Operand v l) (hjoin : Join x f) (hr : Operand w r) :
    Chain Operand Join (v ++ x :: w) (f l r) := by
  have hchain := Chain.mk hl (.next hjoin hr (.done (f l r)))
  rwa [List.append_nil] at hchain

end Combinations

inductive SumJoin : Joins IntExpr
  | plus : SumJoin (.operator .plus) (.arith .add)
  | minus : SumJoin (.operator .minus) (.arith .subtract)

inductive ProductJoin : Joins IntExpr
  | times : ProductJoin (.operator .times) (.arith .multiply)
  | divide : ProductJoin (.operator .divide) (.arith .divide)
  | modulo : ProductJoin (.operator .modulo) (.arith .modulo)

/-- The signs. A plus adds no node. -/
inductive Sign : Prefixes IntExpr
  | plus : Sign (.operator .plus) id
  | minus : Sign (.operator .minus) .negate

/-- The relations between integers. Those that trees do not have are negations. -/
inductive Relation : Lexeme → (IntExpr → IntExpr → BoolExpr) → Prop
  | equal : Relation (.operator .equal) (.compare .equal)
  | unequal : Relation (.operator .unequal) fun l r => .not (.compare .equal l r)
  | atLeast : Relation (.operator .atLeast) fun l r => .not (.compare .less l r)
  | atMost : Relation (.operator .atMost) fun l r => .not (.compare .greater l r)
  | greater : Relation (.operator .greater) (.compare .greater)
  | less : Relation (.operator .less) (.compare .less)

inductive EquivalenceJoin : Joins BoolExpr
  | equal : EquivalenceJoin (.operator .equal) (.connect .same)
  | unequal : EquivalenceJoin (.operator .unequal) fun l r => .not (.connect .same l r)

inductive JunctionJoin : Joins BoolExpr
  | and : JunctionJoin (.operator .and) (.connect .and)
  | or : JunctionJoin (.operator .or) (.connect .or)

inductive Negation : Prefixes BoolExpr
  | not : Negation (.operator .not) .not

/-- The operands of integer expressions. Parentheses add no node. -/
inductive IntOperand : Phrases IntExpr
  | group {w : List Lexeme} {t : IntExpr}
      (inside : Chain (Chain (Prefixed IntOperand Sign) ProductJoin) SumJoin w t) :
      IntOperand (.opening :: (w ++ [.closing])) t
  | number (digits : List Char) :
      IntOperand [.number digits] (.literal (Nat.ofDigitChars 10 digits 0))
  | quantity (q : Quantity) : IntOperand [.keyword (.quantity q)] (.quantity q)
  | weekday (d : Weekday) (short : Bool) :
      IntOperand [.keyword (.weekday d short)] (.literal d.number)

/-- Integer expressions over the given operands. -/
abbrev IntChain (Operand : Phrases IntExpr) : Phrases IntExpr :=
  Chain (Chain (Prefixed Operand Sign) ProductJoin) SumJoin

abbrev IntSentence : Phrases IntExpr := IntChain IntOperand

/-- Comparisons of two integer expressions. -/
inductive Comparison : Phrases BoolExpr
  | mk {x : Lexeme} {f : IntExpr → IntExpr → BoolExpr} {v w : List Lexeme} {l r : IntExpr}
      (left : IntSentence v l) (relation : Relation x f) (right : IntSentence w r) :
      Comparison (v ++ x :: w) (f l r)

/-- The operands of boolean expressions. An opening parenthesis begins a group or
the left side of a comparison. -/
inductive BoolOperand : Phrases BoolExpr
  | group {w : List Lexeme} {t : BoolExpr}
      (inside : Chain (Chain (Prefixed BoolOperand Negation) JunctionJoin) EquivalenceJoin w t) :
      BoolOperand (.opening :: (w ++ [.closing])) t
  | truth (value : Bool) : BoolOperand [.keyword (.truth value)] (.literal value)
  | statement (s : Statement) : BoolOperand [.keyword (.statement s)] (.statement s)
  | comparison {w : List Lexeme} {t : BoolExpr} (comparison : Comparison w t) :
      BoolOperand w t

/-- Boolean expressions over the given operands. -/
abbrev BoolChain (Operand : Phrases BoolExpr) : Phrases BoolExpr :=
  Chain (Chain (Prefixed Operand Negation) JunctionJoin) EquivalenceJoin

abbrev BoolSentence : Phrases BoolExpr := BoolChain BoolOperand

theorem IntSentence.single {w : List Lexeme} {t : IntExpr} (h : Prefixed IntOperand Sign w t) :
    IntSentence w t :=
  Chain.single (Chain.single h)

theorem BoolSentence.single {w : List Lexeme} {t : BoolExpr}
    (h : Prefixed BoolOperand Negation w t) : BoolSentence w t :=
  Chain.single (Chain.single h)

/-- Every language that is closed under the rules for integer operands holds
all of them. -/
theorem IntOperand.least {M : Phrases IntExpr}
    (group : ∀ {w : List Lexeme} {t : IntExpr}, IntSentence w t → IntChain M w t →
      M (.opening :: (w ++ [.closing])) t)
    (number : ∀ digits : List Char,
      M [.number digits] (.literal (Nat.ofDigitChars 10 digits 0)))
    (quantity : ∀ q : Quantity, M [.keyword (.quantity q)] (.quantity q))
    (weekday : ∀ (d : Weekday) (short : Bool),
      M [.keyword (.weekday d short)] (.literal d.number))
    {w : List Lexeme} {t : IntExpr} (h : IntOperand w t) : M w t :=
  @IntOperand.rec (fun w t _ => M w t) (fun w t _ => IntChain M w t)
    (fun w t _ => Chain (Prefixed M Sign) ProductJoin w t)
    (fun l w t _ => Repeated (Chain (Prefixed M Sign) ProductJoin) SumJoin l w t)
    (fun w t _ => Prefixed M Sign w t)
    (fun l w t _ => Repeated (Prefixed M Sign) ProductJoin l w t)
    group number quantity weekday
    (fun _ _ first rest => .mk first rest) (fun _ _ first rest => .mk first rest)
    .done (fun join _ _ operand rest => .next join operand rest)
    (fun _ operand => .bare operand) (fun apply _ operand => .applied apply operand)
    .done (fun join _ _ operand rest => .next join operand rest) w t h

/-- Every language that is closed under the rules for boolean operands holds
all of them. -/
theorem BoolOperand.least {M : Phrases BoolExpr}
    (group : ∀ {w : List Lexeme} {t : BoolExpr}, BoolSentence w t → BoolChain M w t →
      M (.opening :: (w ++ [.closing])) t)
    (truth : ∀ value : Bool, M [.keyword (.truth value)] (.literal value))
    (statement : ∀ s : Statement, M [.keyword (.statement s)] (.statement s))
    (comparison : ∀ {w : List Lexeme} {t : BoolExpr}, Comparison w t → M w t)
    {w : List Lexeme} {t : BoolExpr} (h : BoolOperand w t) : M w t :=
  @BoolOperand.rec (fun w t _ => M w t) (fun w t _ => BoolChain M w t)
    (fun w t _ => Chain (Prefixed M Negation) JunctionJoin w t)
    (fun l w t _ => Repeated (Chain (Prefixed M Negation) JunctionJoin) EquivalenceJoin l w t)
    (fun w t _ => Prefixed M Negation w t)
    (fun l w t _ => Repeated (Prefixed M Negation) JunctionJoin l w t)
    group truth statement comparison
    (fun _ _ first rest => .mk first rest) (fun _ _ first rest => .mk first rest)
    .done (fun join _ _ operand rest => .next join operand rest)
    (fun _ operand => .bare operand) (fun apply _ operand => .applied apply operand)
    .done (fun join _ _ operand rest => .next join operand rest) w t h

end Grammar

end DateRules
