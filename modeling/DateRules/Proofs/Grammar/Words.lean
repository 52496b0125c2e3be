import DateRules.Proofs.Grammar.Language

/-!
# The words of the grammar

What can be said of a word of the grammar without its tree. Words are never
empty, and an operand begins with none of the operators that may precede it.
Integer expressions are made of integral lexemes only, and every boolean
expression has one that is not integral, so no word is of both sorts.
-/

namespace DateRules

namespace Grammar

section Combinations

variable {α : Type} {L : Phrases α} {Join : Joins α} {Apply : Prefixes α}
  {P : List Lexeme → Prop}

theorem Repeated.word (hnil : P []) (happend : ∀ {u v : List Lexeme}, P u → P v → P (u ++ v))
    (hjoin : ∀ {x : Lexeme} {f : α → α → α}, Join x f → P [x])
    (hoperand : ∀ {w : List Lexeme} {t : α}, L w t → P w)
    {l : α} {w : List Lexeme} {t : α} (h : Repeated L Join l w t) : P w := by
  induction h with
  | done t => exact hnil
  | next join operand _ ih => exact happend (hjoin join) (happend (hoperand operand) ih)

/-- A property of words that concatenation keeps goes from the operands and the
operators to the chains. -/
theorem Chain.word (hnil : P []) (happend : ∀ {u v : List Lexeme}, P u → P v → P (u ++ v))
    (hjoin : ∀ {x : Lexeme} {f : α → α → α}, Join x f → P [x])
    (hoperand : ∀ {w : List Lexeme} {t : α}, L w t → P w)
    {w : List Lexeme} {t : α} (h : Chain L Join w t) : P w := by
  obtain ⟨first, rest⟩ := h
  exact happend (hoperand first) (rest.word hnil happend hjoin hoperand)

theorem Prefixed.word (happend : ∀ {u v : List Lexeme}, P u → P v → P (u ++ v))
    (happly : ∀ {x : Lexeme} {f : α → α}, Apply x f → P [x])
    (hoperand : ∀ {w : List Lexeme} {t : α}, L w t → P w)
    {w : List Lexeme} {t : α} (h : Prefixed L Apply w t) : P w := by
  cases h with
  | bare operand => exact hoperand operand
  | applied apply operand => exact happend (happly apply) (hoperand operand)

/-- The same for chains of chains of operands that may have an operator before
them, which both sorts are. -/
theorem Chain.word_of_ranks {Inner Outer : Joins α} (hnil : P [])
    (happend : ∀ {u v : List Lexeme}, P u → P v → P (u ++ v))
    (houter : ∀ {x : Lexeme} {f : α → α → α}, Outer x f → P [x])
    (hinner : ∀ {x : Lexeme} {f : α → α → α}, Inner x f → P [x])
    (happly : ∀ {x : Lexeme} {f : α → α}, Apply x f → P [x])
    (hoperand : ∀ {w : List Lexeme} {t : α}, L w t → P w)
    {w : List Lexeme} {t : α} (h : Chain (Chain (Prefixed L Apply) Inner) Outer w t) : P w := by
  refine h.word hnil happend houter fun hv => ?_
  refine hv.word hnil happend hinner fun hu => ?_
  exact hu.word happend happly hoperand

theorem Chain.first {w : List Lexeme} {t : α} (h : Chain L Join w t) :
    ∃ v u l, w = v ++ u ∧ L v l ∧ Repeated L Join l u t := by
  obtain ⟨first, rest⟩ := h
  exact ⟨_, _, _, rfl, first, rest⟩

theorem Chain.first_of_ranks {Inner Outer : Joins α} {w : List Lexeme} {t : α}
    (h : Chain (Chain L Inner) Outer w t) : ∃ v u l, L v l ∧ w = v ++ u := by
  obtain ⟨inner, u, r, rfl, hinner, -⟩ := h.first
  obtain ⟨v, u', l, rfl, hv, -⟩ := hinner.first
  exact ⟨v, u' ++ u, l, hv, List.append_assoc _ _ _⟩

theorem Prefixed.exists_mem {Q : Lexeme → Prop}
    (hoperand : ∀ {w : List Lexeme} {t : α}, L w t → ∃ x ∈ w, Q x)
    {w : List Lexeme} {t : α} (h : Prefixed L Apply w t) : ∃ x ∈ w, Q x := by
  cases h with
  | bare operand => exact hoperand operand
  | applied apply operand =>
      obtain ⟨x, hx, hq⟩ := hoperand operand
      exact ⟨x, List.mem_cons_of_mem _ hx, hq⟩

theorem Chain.exists_mem_of_ranks {Inner Outer : Joins α} {Q : Lexeme → Prop}
    (hoperand : ∀ {w : List Lexeme} {t : α}, L w t → ∃ x ∈ w, Q x)
    {w : List Lexeme} {t : α} (h : Chain (Chain (Prefixed L Apply) Inner) Outer w t) :
    ∃ x ∈ w, Q x := by
  obtain ⟨v, u, l, hv, rfl⟩ := h.first_of_ranks
  obtain ⟨x, hx, hq⟩ := hv.exists_mem hoperand
  exact ⟨x, List.mem_append_left _ hx, hq⟩

end Combinations

section Sorts

/-- The lexemes of integer expressions. -/
def isIntegral : Lexeme → Bool
  | .number _ => true
  | .keyword (.quantity _) => true
  | .keyword (.weekday _ _) => true
  | .operator .plus => true
  | .operator .minus => true
  | .operator .times => true
  | .operator .divide => true
  | .operator .modulo => true
  | .opening => true
  | .closing => true
  | _ => false

theorem SumJoin.isIntegral {x : Lexeme} {f : IntExpr → IntExpr → IntExpr} (h : SumJoin x f) :
    isIntegral x = true := by
  cases h <;> rfl

theorem ProductJoin.isIntegral {x : Lexeme} {f : IntExpr → IntExpr → IntExpr}
    (h : ProductJoin x f) : isIntegral x = true := by
  cases h <;> rfl

theorem Sign.isIntegral {x : Lexeme} {f : IntExpr → IntExpr} (h : Sign x f) :
    isIntegral x = true := by
  cases h <;> rfl

theorem Relation.not_isIntegral {x : Lexeme} {f : IntExpr → IntExpr → BoolExpr}
    (h : Relation x f) : isIntegral x = false := by
  cases h <;> rfl

/-- The property of a word that all its lexemes are integral. -/
def Integral (w : List Lexeme) : Prop := ∀ x ∈ w, isIntegral x = true

theorem Integral.append {u v : List Lexeme} (hu : Integral u) (hv : Integral v) :
    Integral (u ++ v) := by
  intro x hx
  rcases List.mem_append.mp hx with hx | hx
  · exact hu x hx
  · exact hv x hx

theorem integral_singleton {x : Lexeme} (h : isIntegral x = true) : Integral [x] := by
  intro y hy
  rw [List.mem_singleton.mp hy]
  exact h

theorem integral_of_intChain {M : Phrases IntExpr}
    (hoperand : ∀ {w : List Lexeme} {t : IntExpr}, M w t → Integral w)
    {w : List Lexeme} {t : IntExpr} (h : IntChain M w t) : Integral w := by
  have hnil : Integral [] := by simp [Integral]
  exact Chain.word_of_ranks hnil .append (fun hx => integral_singleton hx.isIntegral)
    (fun hx => integral_singleton hx.isIntegral) (fun hx => integral_singleton hx.isIntegral)
    hoperand h

theorem IntOperand.integral {w : List Lexeme} {t : IntExpr} (h : IntOperand w t) :
    Integral w := by
  refine IntOperand.least (M := fun w _ => Integral w) ?_ ?_ ?_ ?_ h
  · intro w t _ inside
    have hw := integral_of_intChain (fun hv => hv) inside
    exact .append (u := [.opening]) (integral_singleton rfl)
      (hw.append (integral_singleton rfl))
  · intro digits
    exact integral_singleton rfl
  · intro q
    exact integral_singleton rfl
  · intro d short
    exact integral_singleton rfl

theorem IntSentence.integral {w : List Lexeme} {t : IntExpr} (h : IntSentence w t) :
    Integral w :=
  integral_of_intChain IntOperand.integral h

theorem Comparison.exists_not_isIntegral {w : List Lexeme} {t : BoolExpr}
    (h : Comparison w t) : ∃ x ∈ w, isIntegral x = false := by
  obtain ⟨left, relation, right⟩ := h
  exact ⟨_, List.mem_append_right _ List.mem_cons_self, relation.not_isIntegral⟩

theorem BoolOperand.exists_not_isIntegral {w : List Lexeme} {t : BoolExpr}
    (h : BoolOperand w t) : ∃ x ∈ w, isIntegral x = false := by
  refine BoolOperand.least (M := fun w _ => ∃ x ∈ w, isIntegral x = false) ?_ ?_ ?_ ?_ h
  · intro w t _ inside
    obtain ⟨x, hx, hq⟩ := inside.exists_mem_of_ranks fun hv => hv
    exact ⟨x, List.mem_cons_of_mem _ (List.mem_append_left _ hx), hq⟩
  · intro value
    exact ⟨_, List.mem_singleton_self _, rfl⟩
  · intro s
    exact ⟨_, List.mem_singleton_self _, rfl⟩
  · intro w t comparison
    exact comparison.exists_not_isIntegral

theorem BoolSentence.exists_not_isIntegral {w : List Lexeme} {t : BoolExpr}
    (h : BoolSentence w t) : ∃ x ∈ w, isIntegral x = false :=
  h.exists_mem_of_ranks BoolOperand.exists_not_isIntegral

/-- No word is of both sorts. -/
theorem IntSentence.not_boolSentence {w : List Lexeme} {t : IntExpr} {e : BoolExpr}
    (h : IntSentence w t) : ¬ BoolSentence w e := by
  intro hb
  obtain ⟨x, hx, hq⟩ := hb.exists_not_isIntegral
  rw [h.integral x hx] at hq
  exact Bool.noConfusion hq

end Sorts

section Heads

theorem IntOperand.head {w : List Lexeme} {t : IntExpr} (h : IntOperand w t) :
    ∃ x v, w = x :: v ∧ ∀ f, ¬ Sign x f := by
  cases h with
  | group inside => exact ⟨_, _, rfl, fun f hf => nomatch hf⟩
  | number digits => exact ⟨_, _, rfl, fun f hf => nomatch hf⟩
  | quantity q => exact ⟨_, _, rfl, fun f hf => nomatch hf⟩
  | weekday d short => exact ⟨_, _, rfl, fun f hf => nomatch hf⟩

theorem IntSentence.ne_nil {w : List Lexeme} {t : IntExpr} (h : IntSentence w t) : w ≠ [] := by
  have hmem : ∃ x ∈ w, isIntegral x = true := by
    refine h.exists_mem_of_ranks ?_
    intro v t hv
    obtain ⟨x, u, rfl, -⟩ := hv.head
    exact ⟨x, List.mem_cons_self, hv.integral x List.mem_cons_self⟩
  obtain ⟨x, hx, -⟩ := hmem
  exact List.ne_nil_of_mem hx

theorem Comparison.head {w : List Lexeme} {t : BoolExpr} (h : Comparison w t) :
    ∃ x v, w = x :: v ∧ isIntegral x = true := by
  obtain @⟨_, _, v, _, _, _, left, relation, right⟩ := h
  cases v with
  | nil => exact absurd rfl left.ne_nil
  | cons x v => exact ⟨x, _, rfl, left.integral x List.mem_cons_self⟩

theorem BoolOperand.head {w : List Lexeme} {t : BoolExpr} (h : BoolOperand w t) :
    ∃ x v, w = x :: v ∧ ∀ f, ¬ Negation x f := by
  cases h with
  | group inside => exact ⟨_, _, rfl, fun f hf => nomatch hf⟩
  | truth value => exact ⟨_, _, rfl, fun f hf => nomatch hf⟩
  | statement s => exact ⟨_, _, rfl, fun f hf => nomatch hf⟩
  | comparison comparison =>
      obtain ⟨x, v, rfl, hx⟩ := comparison.head
      refine ⟨x, v, rfl, ?_⟩
      rintro f ⟨⟩
      exact absurd hx (by decide)

end Heads

end Grammar

end DateRules
