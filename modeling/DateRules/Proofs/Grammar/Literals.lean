import DateRules.Proofs.Grammar.Language

/-!
# The literals of a tree

The literals of a tree are the values of the numbers and weekdays in the word that
writes it, in the same order: `IntSentence.literals` and `BoolSentence.literals`.
In particular the literals of a tree that is written by a word have no sign, and
they are not longer than the numbers of the word.
-/

namespace DateRules

namespace IntExpr

/-- The literals, from left to right. -/
def literals : IntExpr → List Int
  | literal v => [v]
  | quantity _ => []
  | negate e => e.literals
  | arith _ l r => l.literals ++ r.literals

end IntExpr

namespace BoolExpr

def literals : BoolExpr → List Int
  | literal _ => []
  | statement _ => []
  | not e => e.literals
  | connect _ l r => l.literals ++ r.literals
  | compare _ l r => l.literals ++ r.literals

end BoolExpr

/-- The value that a lexeme stands for by itself. -/
def Lexeme.value? : Lexeme → Option Int
  | number digits => some (Nat.ofDigitChars 10 digits 0)
  | keyword (.weekday d _) => some d.number
  | _ => none

namespace Grammar

section Collecting

variable {α : Type} {collect : α → List Int} {L : Phrases α} {Join : Joins α}
  {Apply : Prefixes α}

/-- An operator between two operands adds no literal. -/
def JoinsLiterals (collect : α → List Int) (Join : Joins α) : Prop :=
  ∀ x f, Join x f → x.value? = none ∧ ∀ l r, collect (f l r) = collect l ++ collect r

def KeepsLiterals (collect : α → List Int) (Apply : Prefixes α) : Prop :=
  ∀ x f, Apply x f → x.value? = none ∧ ∀ t, collect (f t) = collect t

/-- The literals of a tree are the values in the word that writes it. -/
def WritesLiterals (collect : α → List Int) (L : Phrases α) : Prop :=
  ∀ w t, L w t → collect t = w.filterMap Lexeme.value?

theorem Repeated.literals (hjoin : JoinsLiterals collect Join) (hoperand : WritesLiterals collect L)
    {l t : α} {w : List Lexeme} (h : Repeated L Join l w t) :
    collect t = collect l ++ w.filterMap Lexeme.value? := by
  induction h with
  | done t => simp
  | next join operand _ ih =>
      obtain ⟨hvalue, hcollect⟩ := hjoin _ _ join
      rw [ih, hcollect, hoperand _ _ operand, List.filterMap_cons_none hvalue,
        List.filterMap_append, List.append_assoc]

theorem WritesLiterals.chain (hoperand : WritesLiterals collect L)
    (hjoin : JoinsLiterals collect Join) : WritesLiterals collect (Chain L Join) := by
  rintro w t ⟨first, rest⟩
  rw [rest.literals hjoin hoperand, hoperand _ _ first, List.filterMap_append]

theorem WritesLiterals.prefixed (hoperand : WritesLiterals collect L)
    (happly : KeepsLiterals collect Apply) : WritesLiterals collect (Prefixed L Apply) := by
  intro w t h
  cases h with
  | bare operand => exact hoperand _ _ operand
  | applied apply operand =>
      obtain ⟨hvalue, hcollect⟩ := happly _ _ apply
      rw [hcollect, hoperand _ _ operand, List.filterMap_cons_none hvalue]

theorem filterMap_value?_group (w : List Lexeme) :
    (Lexeme.opening :: (w ++ [.closing])).filterMap Lexeme.value? =
      w.filterMap Lexeme.value? := by
  rw [List.filterMap_cons_none rfl, List.filterMap_append]
  exact List.append_nil _

end Collecting

theorem WritesLiterals.intChain {L : Phrases IntExpr}
    (h : WritesLiterals IntExpr.literals L) : WritesLiterals IntExpr.literals (IntChain L) := by
  have hsign : KeepsLiterals IntExpr.literals Sign := by
    rintro _ _ ⟨⟩ <;> exact ⟨rfl, fun _ => rfl⟩
  have hproduct : JoinsLiterals IntExpr.literals ProductJoin := by
    rintro _ _ ⟨⟩ <;> exact ⟨rfl, fun _ _ => rfl⟩
  have hsum : JoinsLiterals IntExpr.literals SumJoin := by
    rintro _ _ ⟨⟩ <;> exact ⟨rfl, fun _ _ => rfl⟩
  exact ((h.prefixed hsign).chain hproduct).chain hsum

theorem WritesLiterals.boolChain {L : Phrases BoolExpr}
    (h : WritesLiterals BoolExpr.literals L) : WritesLiterals BoolExpr.literals (BoolChain L) := by
  have hnegation : KeepsLiterals BoolExpr.literals Negation := by
    rintro _ _ ⟨⟩
    exact ⟨rfl, fun _ => rfl⟩
  have hjunction : JoinsLiterals BoolExpr.literals JunctionJoin := by
    rintro _ _ ⟨⟩ <;> exact ⟨rfl, fun _ _ => rfl⟩
  have hequivalence : JoinsLiterals BoolExpr.literals EquivalenceJoin := by
    rintro _ _ ⟨⟩ <;> exact ⟨rfl, fun _ _ => rfl⟩
  exact ((h.prefixed hnegation).chain hjunction).chain hequivalence

theorem IntOperand.literals {w : List Lexeme} {t : IntExpr} (h : IntOperand w t) :
    t.literals = w.filterMap Lexeme.value? := by
  let M : Phrases IntExpr := fun w t => t.literals = w.filterMap Lexeme.value?
  refine IntOperand.least (M := M) ?_ ?_ ?_ ?_ h
  · intro w t _ inside
    have hchain : WritesLiterals IntExpr.literals (IntChain M) :=
      WritesLiterals.intChain fun _ _ hM => hM
    exact (hchain w t inside).trans (filterMap_value?_group w).symm
  · intro digits
    rfl
  · intro q
    rfl
  · intro d short
    rfl

theorem IntSentence.literals {w : List Lexeme} {t : IntExpr} (h : IntSentence w t) :
    t.literals = w.filterMap Lexeme.value? :=
  WritesLiterals.intChain (fun _ _ hoperand => IntOperand.literals hoperand) w t h

theorem Comparison.literals {w : List Lexeme} {t : BoolExpr} (h : Comparison w t) :
    t.literals = w.filterMap Lexeme.value? := by
  obtain ⟨left, relation, right⟩ := h
  rw [List.filterMap_append, ← left.literals]
  cases relation <;> rw [List.filterMap_cons_none rfl, ← right.literals] <;> rfl

theorem BoolOperand.literals {w : List Lexeme} {t : BoolExpr} (h : BoolOperand w t) :
    t.literals = w.filterMap Lexeme.value? := by
  let M : Phrases BoolExpr := fun w t => t.literals = w.filterMap Lexeme.value?
  refine BoolOperand.least (M := M) ?_ ?_ ?_ ?_ h
  · intro w t _ inside
    have hchain : WritesLiterals BoolExpr.literals (BoolChain M) :=
      WritesLiterals.boolChain fun _ _ hM => hM
    exact (hchain w t inside).trans (filterMap_value?_group w).symm
  · intro value
    rfl
  · intro s
    rfl
  · intro w t comparison
    exact comparison.literals

theorem BoolSentence.literals {w : List Lexeme} {t : BoolExpr} (h : BoolSentence w t) :
    t.literals = w.filterMap Lexeme.value? :=
  WritesLiterals.boolChain (fun _ _ hoperand => BoolOperand.literals hoperand) w t h

end Grammar

end DateRules
