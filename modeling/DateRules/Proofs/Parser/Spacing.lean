import DateRules.Proofs.Grammar.Neighbours
import DateRules.Proofs.Parser.Acceptance
import DateRules.Proofs.Token.Spacing

/-!
# Blanks in an expression

Whether a text is accepted and with which tree is decided by its lexemes alone
(`Accepts.of_lexemes`). So blanks that are put in between its tokens change nothing
(`Accepts.spaced`). Blanks that are left out change nothing either (`Accepts.unspaced`):
the text is a sentence, and no lexeme of a sentence joins the one before it.
-/

namespace DateRules

open Grammar

theorem Admissible.of_lexemes {n : Nat} {tokens tokens' : List Token}
    (hlexemes : lexemes tokens' = lexemes tokens) (h : Admissible n tokens) :
    Admissible n tokens' := by
  refine ⟨?_, ?_⟩
  · rw [hlexemes]
    exact h.nesting
  · rw [hlexemes]
    exact h.readable

theorem tokenize_spaced {text : String} {tokenized : Tokenized} {runs : Nat → List Char}
    (htext : tokenize text = .ok tokenized) (hfits : FitsBetween runs tokenized.tokens) :
    tokenize (String.ofList (spaced runs 0 text.toList)) = .ok (tokenized.moved runs) := by
  rw [tokenize, String.toList_ofList]
  exact tokenizeFrom_spaced htext hfits

section Accepted

variable {α : Type} {parse? : String → Except OverlongLiteral (Option α)}
  {room : List Lexeme → Nat} {L : Phrases α}
  {height : α → Nat} {text text' : String} {t : α} {tokenized : Tokenized}

/-- A text with the lexemes of an accepted one is accepted with the same tree. -/
theorem Accepts.of_lexemes (haccepts : Accepts parse? room L height)
    (h : parse? text = .ok (some t)) {other : Tokenized} (htext : tokenize text = .ok tokenized)
    (hother : tokenize text' = .ok other)
    (hlexemes : lexemes other.tokens = lexemes tokenized.tokens) :
    parse? text' = .ok (some t) := by
  obtain ⟨found, hfound, hword, hok, hheight⟩ := (haccepts text t).mp h
  obtain rfl : tokenized = found := Except.ok.inj (htext.symm.trans hfound)
  -- The room on the stack is told by the lexemes too.
  have hok' := hok.of_lexemes hlexemes
  rw [← hlexemes] at hword hok'
  exact (haccepts text' t).mpr ⟨other, hother, hword, hok', hheight⟩

theorem Accepts.spaced (haccepts : Accepts parse? room L height) (h : parse? text = .ok (some t)) :
    ∃ tokenized, tokenize text = .ok tokenized ∧
      ∀ runs, FitsBetween runs tokenized.tokens →
        parse? (String.ofList (spaced runs 0 text.toList)) = .ok (some t) := by
  obtain ⟨tokenized, htext, -⟩ := (haccepts text t).mp h
  refine ⟨tokenized, htext, ?_⟩
  intro runs hfits
  exact haccepts.of_lexemes h htext (tokenize_spaced htext hfits) (tokenized.lexemes_moved runs)

/-- The lexemes of a sentence can be read without blanks between them. -/
theorem exists_tokenize_unspaced (hstance : GivesOperands L)
    (htext : tokenize text = .ok tokenized) (hword : L (lexemes tokenized.tokens) t) :
    ∃ other, tokenize (String.ofList (unspaced text.toList)) = .ok other ∧
      lexemes other.tokens = lexemes tokenized.tokens := by
  have hspelled := spelled_of_tokenizeFrom htext
  have hsplits := splits_flatMap hspelled (isChain_apart (hstance _ _ hword) hspelled)
  refine Splits.tokenize ?_
  rw [String.toList_ofList, unspaced_of_tokenizeFrom htext]
  exact hsplits

theorem Accepts.unspaced (haccepts : Accepts parse? room L height) (hstance : GivesOperands L)
    (h : parse? text = .ok (some t)) :
    parse? (String.ofList (unspaced text.toList)) = .ok (some t) := by
  obtain ⟨tokenized, htext, hword, -⟩ := (haccepts text t).mp h
  obtain ⟨other, hother, hlexemes⟩ := exists_tokenize_unspaced hstance htext hword
  exact haccepts.of_lexemes h htext hother hlexemes

end Accepted

/-- Blanks put in at the ends of a text and between its tokens move the tokens by the
number of characters put in before them and leave their lexemes as they are. An accepted
text is accepted with the same tree if such blanks are put in, and if all of its blanks
are left out. -/
theorem spacing_irrelevant (stack : CallStack) :
    (∀ text tokenized runs, tokenize text = .ok tokenized →
      FitsBetween runs tokenized.tokens →
        tokenize (String.ofList (spaced runs 0 text.toList)) = .ok (tokenized.moved runs) ∧
          lexemes (tokenized.moved runs).tokens = lexemes tokenized.tokens) ∧
    (∀ text t, BoolExpr.parse? stack text = .ok (some t) →
      BoolExpr.parse? stack (String.ofList (unspaced text.toList)) = .ok (some t) ∧
        ∃ tokenized, tokenize text = .ok tokenized ∧
          ∀ runs, FitsBetween runs tokenized.tokens →
            BoolExpr.parse? stack (String.ofList (spaced runs 0 text.toList)) = .ok (some t)) ∧
    ∀ text t, IntExpr.parse? stack text = .ok (some t) →
      IntExpr.parse? stack (String.ofList (unspaced text.toList)) = .ok (some t) ∧
        ∃ tokenized, tokenize text = .ok tokenized ∧
          ∀ runs, FitsBetween runs tokenized.tokens →
            IntExpr.parse? stack (String.ofList (spaced runs 0 text.toList)) = .ok (some t) := by
  refine ⟨?_, ?_, ?_⟩
  · intro text tokenized runs htext hfits
    exact ⟨tokenize_spaced htext hfits, tokenized.lexemes_moved runs⟩
  · intro text t h
    exact ⟨(BoolExpr.accepts stack).unspaced BoolSentence.stance h,
      (BoolExpr.accepts stack).spaced h⟩
  · intro text t h
    exact ⟨(IntExpr.accepts stack).unspaced IntSentence.stance h, (IntExpr.accepts stack).spaced h⟩

/-- Two tokens that are no expression, a comparison and a difference, each with a tab put
in. Without the blanks the operators meet their operands. -/
theorem spacing_irrelevant_tab :
    tokenize "1 \tmon" =
      .ok ⟨[⟨.number ['1'], 0⟩, ⟨.keyword (.weekday .monday true), 3⟩], 6⟩ ∧
    (∃ t, BoolExpr.parse? .least "year != 1" = .ok (some t) ∧
      BoolExpr.parse? .least "year!=1" = .ok (some t) ∧
      BoolExpr.parse? .least "year \t!= 1" = .ok (some t)) ∧
    ∃ t, IntExpr.parse? .least "mon - -1" = .ok (some t) ∧
      IntExpr.parse? .least "mon--1" = .ok (some t) ∧
      IntExpr.parse? .least "mon - \t-1" = .ok (some t) := by
  obtain ⟨hmoved, hbool, hint⟩ := spacing_irrelevant .least
  have htab : ∀ c ∈ ['\t'], Text.isBlank c := List.forall_mem_singleton.mpr (by decide)
  refine ⟨?_, ?_, ?_⟩
  · have htext : tokenize "1 mon" =
        .ok ⟨[⟨.number ['1'], 0⟩, ⟨.keyword (.weekday .monday true), 2⟩], 5⟩ := by
      decide +kernel
    exact (hmoved _ _ (runAt 2 ['\t']) htext (fitsBetween_runAt htab (by decide))).1
  · have htext : tokenize "year != 1" =
        .ok ⟨[⟨.keyword (.quantity .year), 0⟩, ⟨.operator .unequal, 5⟩, ⟨.number ['1'], 8⟩],
          9⟩ := by
      decide +kernel
    have hparsed : BoolExpr.parse? .least "year != 1" =
        .ok (some (.not (.compare .equal (.quantity .year) (.literal 1)))) := by
      decide +kernel
    obtain ⟨hunspaced, tokenized, hfound, hspaced⟩ := hbool _ _ hparsed
    obtain rfl := Except.ok.inj (hfound.symm.trans htext)
    exact ⟨_, hparsed, hunspaced, hspaced (runAt 5 ['\t']) (fitsBetween_runAt htab (by decide))⟩
  · have htext : tokenize "mon - -1" =
        .ok ⟨[⟨.keyword (.weekday .monday true), 0⟩, ⟨.operator .minus, 4⟩,
          ⟨.operator .minus, 6⟩, ⟨.number ['1'], 7⟩], 8⟩ := by
      decide +kernel
    have hparsed : IntExpr.parse? .least "mon - -1" =
        .ok (some (.arith .subtract (.literal 1) (.negate (.literal 1)))) := by
      decide +kernel
    obtain ⟨hunspaced, tokenized, hfound, hspaced⟩ := hint _ _ hparsed
    obtain rfl := Except.ok.inj (hfound.symm.trans htext)
    exact ⟨_, hparsed, hunspaced, hspaced (runAt 6 ['\t']) (fitsBetween_runAt htab (by decide))⟩

end DateRules
