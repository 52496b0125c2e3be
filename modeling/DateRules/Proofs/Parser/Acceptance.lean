import DateRules.Proofs.Parser.Exactness

/-!
# Which texts are accepted

The parsers count the parentheses that are open on their way down, and give up where
there would be too many. So a word that was taken is `Shallow`: no more parentheses
are open at once than may be (`takes_intExpr_shallow`, `takes_boolExpr_shallow`).

That makes the conditions exact under which a text is accepted with a tree
(`IntExpr.accepts`, `BoolExpr.accepts`). They are about the lexemes of the text alone:
where the tokens stand does not enter.
-/

namespace DateRules

open Grammar DateRules.Parser

/-- The property of a word that it closes all of its parentheses and has at most `n`
of them open at once. -/
structure Shallow (n : Nat) (w : List Lexeme) : Prop where
  balanced : Balanced w
  peak : openPeak w ≤ n

section Words

variable {n : Nat} {u v w : List Lexeme}

theorem shallow_nil (n : Nat) : Shallow n [] := ⟨balanced_nil, Nat.zero_le n⟩

theorem Shallow.append (hu : Shallow n u) (hv : Shallow n v) : Shallow n (u ++ v) := by
  refine ⟨hu.balanced.append hv.balanced, ?_⟩
  rw [hu.balanced.openPeak_append]
  exact Nat.max_le.mpr ⟨hu.peak, hv.peak⟩

theorem shallow_singleton {x : Lexeme} (h : IsPlain x) : Shallow n [x] := by
  refine ⟨balanced_singleton h, ?_⟩
  rw [openPeak_cons_of_isPlain h]
  exact Nat.zero_le n

theorem Shallow.group (h : Shallow n w) : Shallow (n + 1) (.opening :: (w ++ [.closing])) := by
  refine ⟨h.balanced.group, ?_⟩
  have hpeak : openPeak (w ++ [.closing]) ≤ n := by
    rw [h.balanced.openPeak_append]
    exact Nat.max_le.mpr ⟨h.peak, Nat.zero_le n⟩
  exact Nat.succ_le_succ hpeak

theorem Shallow.of_intChain {t : IntExpr} (h : IntChain (fun w _ => Shallow n w) w t) :
    Shallow n w :=
  h.word_of_ranks (shallow_nil n) .append
    (fun hx => shallow_singleton (SumJoin.operatorsOnly _ _ hx).isPlain)
    (fun hx => shallow_singleton (ProductJoin.operatorsOnly _ _ hx).isPlain)
    (fun hx => shallow_singleton (Sign.operatorsOnly _ _ hx).isPlain) fun hw => hw

theorem Shallow.of_boolChain {t : BoolExpr} (h : BoolChain (fun w _ => Shallow n w) w t) :
    Shallow n w :=
  h.word_of_ranks (shallow_nil n) .append
    (fun hx => shallow_singleton (EquivalenceJoin.operatorsOnly _ _ hx).isPlain)
    (fun hx => shallow_singleton (JunctionJoin.operatorsOnly _ _ hx).isPlain)
    (fun hx => shallow_singleton (Negation.operatorsOnly _ _ hx).isPlain) fun hw => hw

end Words

section Parsers

theorem takes_intPrimary_shallow (n : Nat) : Takes (intPrimary n) fun w _ => Shallow n w := by
  induction n with
  | zero =>
      exact takes_intOperand (takes_refuseNesting (Closed fun _ _ => False)) False.elim
        fun hx _ => shallow_singleton hx
  | succ n ih =>
      exact takes_intOperand (takes_intChain ih).closed (fun hw => (Shallow.of_intChain hw).group)
        fun hx _ => shallow_singleton hx

theorem takes_intExpr_shallow (n : Nat) : Takes (intExpr n) fun w _ => Shallow n w :=
  (takes_intChain (takes_intPrimary_shallow n)).mono fun _ _ => .of_intChain

theorem takes_relation_shallow (n : Nat) :
    Takes (relation (intExpr n)) fun w _ => Shallow n w := by
  refine takes_relation (takes_intExpr_shallow n) ?_
  intro x f v w l r hv hx hw
  have hrelation : Shallow n [x] := shallow_singleton (Relation.operatorsOnly _ _ hx).isPlain
  exact hv.append (hrelation.append hw)

theorem takes_boolPrimary_shallow (n : Nat) : Takes (boolPrimary n) fun w _ => Shallow n w := by
  induction n with
  | zero =>
      exact takes_boolOperand (takes_refuseNesting (Closed fun _ _ => False))
        (takes_relation_shallow 0) False.elim fun hx _ => shallow_singleton hx
  | succ n ih =>
      exact takes_boolOperand (takes_boolChain ih).closed (takes_relation_shallow (n + 1))
        (fun hw => (Shallow.of_boolChain hw).group) fun hx _ => shallow_singleton hx

theorem takes_boolExpr_shallow (n : Nat) : Takes (boolExpr n) fun w _ => Shallow n w :=
  (takes_boolChain (takes_boolPrimary_shallow n)).mono fun _ _ => .of_boolChain

end Parsers

section Texts

variable {α : Type} {L : Phrases α}

/-- A text is accepted with a tree if and only if its tokens are a sentence that writes
the tree, none of its literals is too long, there is room for its parentheses and the tree
is not too high. -/
def Accepts (parse? : String → Except OverlongLiteral (Option α)) (room : List Lexeme → Nat)
    (L : Phrases α) (height : α → Nat) : Prop :=
  ∀ text t, parse? text = .ok (some t) ↔
    ∃ tokenized, tokenize text = .ok tokenized ∧ L (lexemes tokenized.tokens) t ∧
      Admissible (room (lexemes tokenized.tokens)) tokenized.tokens ∧ height t ≤ maxHeight

theorem accepts_readText {p : Nat → Parser α} {Ext : Lexeme → Prop} (room : List Lexeme → Nat)
    (toExpr : α → Expr) (hp : ∀ n, Reads (p n) L Ext (Admissible n))
    (hshallow : ∀ n, Takes (p n) fun w _ => Shallow n w) :
    Accepts (fun text => acceptedOf (readText p room toExpr text)) room L
      fun t => (toExpr t).height := by
  intro text t
  constructor
  · intro h
    have hread := acceptedOf_eq_some.mp h
    obtain ⟨tokenized, htext, hword, hreadable, hheight⟩ :=
      readText_sound (fun n => (hp n).takes) hread
    obtain ⟨other, hother, hpeak, -⟩ := readText_sound hshallow hread
    obtain rfl : tokenized = other := Except.ok.inj (htext.symm.trans hother)
    exact ⟨tokenized, htext, hword, ⟨hpeak.peak, hreadable⟩, hheight⟩
  · rintro ⟨tokenized, htext, hword, hok, hheight⟩
    exact (acceptedOf_readText_iff hp htext hok).mpr ⟨hword, hheight⟩

theorem IntExpr.accepts (stack : CallStack) :
    Accepts (IntExpr.parse? stack) (stack.nesting .int) IntSentence IntExpr.height :=
  accepts_readText _ .int reads_intExpr takes_intExpr_shallow

theorem BoolExpr.accepts (stack : CallStack) :
    Accepts (BoolExpr.parse? stack) (stack.nesting .bool) BoolSentence BoolExpr.height :=
  accepts_readText _ .bool reads_boolExpr takes_boolExpr_shallow

end Texts

end DateRules
