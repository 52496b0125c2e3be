import DateRules.Proofs.Grammar.Words

/-!
# Parentheses

`openAfter n w` is the number of parentheses that are open after the word `w`,
where `n` were open before it, and is absent as soon as a parenthesis closes none
that is open. A word is `Balanced` if it leaves every such number as it is; all
words of the grammar are. `Balanced.append_closing_inj` says that a balanced word
ends at the first parenthesis that closes none of its own.

`openPeak w` is the greatest number of parentheses that are open at once in `w`,
where those that close none of its own count down. `openPeak_le_iff` reads it off
the prefixes of the word.

`unclosed w` is what stands in `w` from the outermost parenthesis on that is still open
at its end.
-/

namespace DateRules

namespace Grammar

/-- The number of open parentheses after one more lexeme. -/
def nest (n : Nat) : Lexeme → Option Nat
  | .opening => some (n + 1)
  | .closing => if n = 0 then none else some (n - 1)
  | _ => some n

/-- The number of open parentheses after a word. -/
def openAfter (n : Nat) : List Lexeme → Option Nat
  | [] => some n
  | x :: w => (nest n x).bind fun m => openAfter m w

theorem openAfter_append (n : Nat) (u v : List Lexeme) :
    openAfter n (u ++ v) = (openAfter n u).bind fun m => openAfter m v := by
  induction u generalizing n with
  | nil => rfl
  | cons x u ih =>
      rw [List.cons_append, openAfter, openAfter]
      cases nest n x with
      | none => rfl
      | some m => exact ih m

/-- The property of a word that it closes the parentheses that it opens, and no
others. -/
def Balanced (w : List Lexeme) : Prop := ∀ n, openAfter n w = some n

theorem balanced_nil : Balanced [] := by
  intro n
  rfl

theorem Balanced.append {u v : List Lexeme} (hu : Balanced u) (hv : Balanced v) :
    Balanced (u ++ v) := by
  intro n
  rw [openAfter_append, hu n]
  exact hv n

theorem Balanced.group {w : List Lexeme} (hw : Balanced w) :
    Balanced (.opening :: (w ++ [.closing])) := by
  intro n
  change openAfter (n + 1) (w ++ [.closing]) = some n
  rw [openAfter_append, hw (n + 1)]
  rfl

def IsPlain (x : Lexeme) : Prop := x ≠ .opening ∧ x ≠ .closing

theorem isPlain_number (digits : List Char) : IsPlain (.number digits) :=
  ⟨Lexeme.noConfusion, Lexeme.noConfusion⟩

theorem isPlain_keyword (k : Keyword) : IsPlain (.keyword k) :=
  ⟨Lexeme.noConfusion, Lexeme.noConfusion⟩

theorem nest_of_isPlain {x : Lexeme} (h : IsPlain x) (n : Nat) : nest n x = some n := by
  obtain ⟨hopening, hclosing⟩ := h
  cases x <;> first | rfl | contradiction

theorem balanced_singleton {x : Lexeme} (h : IsPlain x) : Balanced [x] := by
  intro n
  rw [openAfter, nest_of_isPlain h]
  rfl

def IsOperator (x : Lexeme) : Prop := ∃ o, x = .operator o

theorem IsOperator.isPlain {x : Lexeme} (h : IsOperator x) : IsPlain x := by
  obtain ⟨o, rfl⟩ := h
  exact ⟨Lexeme.noConfusion, Lexeme.noConfusion⟩

def OperatorsOnly {β : Type} (Table : Lexeme → β → Prop) : Prop :=
  ∀ x f, Table x f → IsOperator x

theorem SumJoin.operatorsOnly : OperatorsOnly SumJoin := by
  rintro x f ⟨⟩ <;> exact ⟨_, rfl⟩

theorem ProductJoin.operatorsOnly : OperatorsOnly ProductJoin := by
  rintro x f ⟨⟩ <;> exact ⟨_, rfl⟩

theorem Sign.operatorsOnly : OperatorsOnly Sign := by
  rintro x f ⟨⟩ <;> exact ⟨_, rfl⟩

theorem Relation.operatorsOnly : OperatorsOnly Relation := by
  rintro x f ⟨⟩ <;> exact ⟨_, rfl⟩

theorem EquivalenceJoin.operatorsOnly : OperatorsOnly EquivalenceJoin := by
  rintro x f ⟨⟩ <;> exact ⟨_, rfl⟩

theorem JunctionJoin.operatorsOnly : OperatorsOnly JunctionJoin := by
  rintro x f ⟨⟩ <;> exact ⟨_, rfl⟩

theorem Negation.operatorsOnly : OperatorsOnly Negation := by
  rintro x f ⟨⟩
  exact ⟨_, rfl⟩

section Combinations

variable {α : Type} {L : Phrases α} {Join : Joins α} {Apply : Prefixes α}

def BalancedWords (L : Phrases α) : Prop := ∀ w t, L w t → Balanced w

theorem BalancedWords.prefixed (h : BalancedWords L)
    (hoperator : OperatorsOnly Apply) : BalancedWords (Prefixed L Apply) := by
  intro w t hw
  exact hw.word .append (fun hx => balanced_singleton (hoperator _ _ hx).isPlain) (h _ _)

theorem BalancedWords.chain (h : BalancedWords L)
    (hoperator : OperatorsOnly Join) : BalancedWords (Chain L Join) := by
  intro w t hw
  exact hw.word balanced_nil .append
    (fun hx => balanced_singleton (hoperator _ _ hx).isPlain) (h _ _)

end Combinations

theorem BalancedWords.intChain {M : Phrases IntExpr} (h : BalancedWords M) :
    BalancedWords (IntChain M) := by
  have hfactor := h.prefixed Sign.operatorsOnly
  have hproduct := hfactor.chain ProductJoin.operatorsOnly
  exact hproduct.chain SumJoin.operatorsOnly

theorem BalancedWords.boolChain {M : Phrases BoolExpr} (h : BalancedWords M) :
    BalancedWords (BoolChain M) := by
  have hterm := h.prefixed Negation.operatorsOnly
  have hjunction := hterm.chain JunctionJoin.operatorsOnly
  exact hjunction.chain EquivalenceJoin.operatorsOnly

theorem IntOperand.balanced {w : List Lexeme} {t : IntExpr} (h : IntOperand w t) :
    Balanced w := by
  refine IntOperand.least (M := fun w _ => Balanced w) ?_ ?_ ?_ ?_ h
  · intro w t _ inside
    exact (BalancedWords.intChain (fun _ _ hv => hv) _ _ inside).group
  · intro digits
    exact balanced_singleton (isPlain_number digits)
  · intro q
    exact balanced_singleton (isPlain_keyword (.quantity q))
  · intro d short
    exact balanced_singleton (isPlain_keyword (.weekday d short))

theorem IntSentence.balanced {w : List Lexeme} {t : IntExpr} (h : IntSentence w t) :
    Balanced w :=
  BalancedWords.intChain (fun _ _ => IntOperand.balanced) _ _ h

theorem Comparison.balanced {w : List Lexeme} {t : BoolExpr} (h : Comparison w t) :
    Balanced w := by
  obtain ⟨left, relation, right⟩ := h
  exact left.balanced.append
    (.append (u := [_]) (balanced_singleton (Relation.operatorsOnly _ _ relation).isPlain)
      right.balanced)

theorem BoolOperand.balanced {w : List Lexeme} {t : BoolExpr} (h : BoolOperand w t) :
    Balanced w := by
  refine BoolOperand.least (M := fun w _ => Balanced w) ?_ ?_ ?_ ?_ h
  · intro w t _ inside
    exact (BalancedWords.boolChain (fun _ _ hv => hv) _ _ inside).group
  · intro value
    exact balanced_singleton (isPlain_keyword (.truth value))
  · intro s
    exact balanced_singleton (isPlain_keyword (.statement s))
  · intro w t comparison
    exact comparison.balanced

theorem BoolSentence.balanced {w : List Lexeme} {t : BoolExpr} (h : BoolSentence w t) :
    Balanced w :=
  BalancedWords.boolChain (fun _ _ => BoolOperand.balanced) _ _ h

/-- A balanced word does not go on across a parenthesis that closes none of its
own. -/
theorem Balanced.not_append_closing {u v : List Lexeme} (hu : Balanced u) :
    ¬ Balanced (u ++ .closing :: v) := by
  intro h
  have hzero := h 0
  rw [openAfter_append, hu 0] at hzero
  simp [openAfter, nest] at hzero

/-- The place of the first parenthesis that closes none of the word before it is
unique. -/
theorem Balanced.append_closing_inj {u v s t : List Lexeme} (hu : Balanced u)
    (hv : Balanced v) (h : u ++ .closing :: s = v ++ .closing :: t) : u = v ∧ s = t := by
  rcases List.append_eq_append_iff.mp h with ⟨a, rfl, ha⟩ | ⟨a, rfl, ha⟩
  · cases a with
    | nil => simpa using ha
    | cons x a =>
        obtain ⟨rfl, -⟩ := List.cons.inj ha
        exact absurd hv hu.not_append_closing
  · cases a with
    | nil => simpa using ha.symm
    | cons x a =>
        obtain ⟨rfl, -⟩ := List.cons.inj ha
        exact absurd hu hv.not_append_closing

/-- The greatest number of parentheses that are open at once. -/
def openPeak : List Lexeme → Nat
  | [] => 0
  | x :: w => if x = .opening then openPeak w + 1
      else if x = .closing then openPeak w - 1
      else openPeak w

theorem openPeak_cons_of_isPlain {x : Lexeme} (h : IsPlain x) (w : List Lexeme) :
    openPeak (x :: w) = openPeak w := by
  rw [openPeak, if_neg h.1, if_neg h.2]

/-- What is open after a word adds to what is opened later. -/
theorem openPeak_append {n m : Nat} {u : List Lexeme} (h : openAfter n u = some m)
    (v : List Lexeme) :
    openPeak (u ++ v) + n = max (openPeak u + n) (openPeak v + m) := by
  induction u generalizing n with
  | nil =>
      cases h
      simp [openPeak]
  | cons x u ih =>
      by_cases hopening : x = .opening
      · subst hopening
        have hu := ih (n := n + 1) h
        simp only [List.cons_append, openPeak, if_true]
        omega
      · by_cases hclosing : x = .closing
        · subst hclosing
          cases n with
          | zero => simp [openAfter, nest] at h
          | succ n =>
              have hu := ih (n := n) h
              simp only [List.cons_append, openPeak, if_true, if_neg hopening]
              omega
        · have hplain : IsPlain x := ⟨hopening, hclosing⟩
          rw [openAfter, nest_of_isPlain hplain] at h
          rw [List.cons_append, openPeak_cons_of_isPlain hplain, openPeak_cons_of_isPlain hplain]
          exact ih h

theorem Balanced.openPeak_append {u : List Lexeme} (hu : Balanced u) (v : List Lexeme) :
    openPeak (u ++ v) = max (openPeak u) (openPeak v) := by
  have h := Grammar.openPeak_append (hu 0) v
  simpa using h

/-- The peak bounds how far the parentheses opened in any prefix outnumber those
closed in it. -/
theorem openPeak_le_iff {w : List Lexeme} {n : Nat} :
    openPeak w ≤ n ↔ ∀ u, u <+: w → u.count .opening ≤ u.count .closing + n := by
  induction w generalizing n with
  | nil => simp [openPeak]
  | cons x w ih =>
      have hsplit : (∀ u, u <+: x :: w → u.count .opening ≤ u.count .closing + n) ↔
          ∀ u, u <+: w → (x :: u).count .opening ≤ (x :: u).count .closing + n := by
        constructor
        · intro h u hu
          exact h (x :: u) ((List.prefix_cons_inj x).mpr hu)
        · intro h u hu
          rcases List.prefix_cons_iff.mp hu with rfl | ⟨v, rfl, hv⟩
          · simp
          · exact h v hv
      rw [hsplit]
      by_cases hopening : x = .opening
      · subst hopening
        cases n with
        | zero =>
            simp only [openPeak, if_true]
            refine ⟨fun h => absurd h (Nat.not_succ_le_zero _), fun h => ?_⟩
            exact absurd (h [] List.nil_prefix) (by decide)
        | succ n =>
            simp only [openPeak, if_true, Nat.succ_le_succ_iff, ih, List.count_cons_self]
            refine forall_congr' fun u => imp_congr_right fun _ => ?_
            rw [List.count_cons_of_ne (by decide)]
            omega
      · by_cases hclosing : x = .closing
        · subst hclosing
          simp only [openPeak, if_true, if_neg hopening, Nat.sub_le_iff_le_add, ih,
            List.count_cons_self]
          refine forall_congr' fun u => imp_congr_right fun _ => ?_
          rw [List.count_cons_of_ne (by decide)]
          omega
        · rw [openPeak_cons_of_isPlain ⟨hopening, hclosing⟩, ih]
          simp only [List.count_cons_of_ne hopening, List.count_cons_of_ne hclosing]

/-- The part of a word from the outermost parenthesis on that it leaves open. -/
def unclosed : List Lexeme → List Lexeme
  | [] => []
  | x :: w => if x = .opening ∧ (openAfter 0 w).isSome then x :: w else unclosed w

theorem unclosed_suffix (w : List Lexeme) : unclosed w <:+ w := by
  induction w with
  | nil => exact List.suffix_refl []
  | cons x w ih =>
      rw [unclosed]
      split
      · exact List.suffix_refl _
      · exact ih.trans (List.suffix_cons x w)

theorem unclosed_opening {w : List Lexeme} (h : (openAfter 0 w).isSome) :
    unclosed (.opening :: w) = .opening :: w := by
  rw [unclosed, if_pos ⟨rfl, h⟩]

theorem nest_add {n m : Nat} {x : Lexeme} (h : nest n x = some m) (k : Nat) :
    nest (n + k) x = some (m + k) := by
  cases x <;> simp only [nest, Option.some.injEq] at h ⊢
  case closing =>
    split at h
    · cases h
    · rw [if_neg (by omega)]
      cases h
      exact congrArg some (by omega)
  all_goals omega

/-- More open parentheses before a word are more open parentheses after it. -/
theorem openAfter_add {n m : Nat} {w : List Lexeme} (h : openAfter n w = some m) (k : Nat) :
    openAfter (n + k) w = some (m + k) := by
  induction w generalizing n with
  | nil =>
      cases h
      rfl
  | cons x w ih =>
      obtain ⟨l, hx, hw⟩ := Option.bind_eq_some_iff.mp h
      rw [openAfter, nest_add hx k]
      exact ih hw

theorem isSome_openAfter_left {n : Nat} {u v : List Lexeme}
    (h : (openAfter n (u ++ v)).isSome) : (openAfter n u).isSome := by
  rw [openAfter_append] at h
  exact Option.isSome_of_isSome_bind h

theorem unclosed_append {n : Nat} {u : List Lexeme} (h : openAfter n u = some 0)
    (v : List Lexeme) : unclosed (u ++ v) = unclosed v := by
  induction u generalizing n with
  | nil => rfl
  | cons x u ih =>
      obtain ⟨m, hx, hu⟩ := Option.bind_eq_some_iff.mp h
      rw [List.cons_append, unclosed, if_neg]
      · exact ih hu
      · -- A parenthesis that is opened here is closed in `u`, so that it is not left open.
        rintro ⟨rfl, hopen⟩
        cases hx
        obtain ⟨k, hk⟩ := Option.isSome_iff_exists.mp (isSome_openAfter_left hopen)
        have hmore := openAfter_add hk (n + 1)
        rw [Nat.zero_add, hu] at hmore
        cases hmore

/-- A balanced word leaves nothing open. -/
theorem Balanced.unclosed_append {u : List Lexeme} (h : Balanced u) (v : List Lexeme) :
    unclosed (u ++ v) = unclosed v :=
  Grammar.unclosed_append (h 0) v

theorem Balanced.unclosed_eq_nil {u : List Lexeme} (h : Balanced u) : unclosed u = [] := by
  have hnil := h.unclosed_append []
  rwa [List.append_nil] at hnil

end Grammar

end DateRules
