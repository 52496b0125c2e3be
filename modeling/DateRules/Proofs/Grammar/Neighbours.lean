import DateRules.Proofs.Grammar.Walks
import DateRules.Proofs.Token.Spelling

/-!
# Neighbours in a sentence

A word of the grammar is read in one of two stances: an operand is wanted, or one has
been given. `Stance.next` is the step with one lexeme, and `Stance.after` the way through a
word. Its steps are those that the grammar asks for, so every sentence leads from `wanting`
to `given` (`IntSentence.stance`, `BoolSentence.stance`).

The stance between two lexemes keeps them apart: a number or a keyword gives an operand,
so that an operator or a closing parenthesis follows, and what follows an operator begins
with no equals sign (`isChain_apart`).
-/

namespace DateRules

namespace Grammar

/-- Whether an operand is wanted at some place of a word or has been given. -/
inductive Stance where
  | wanting
  | given
deriving DecidableEq

namespace Stance

/-- The stance after one more lexeme, if the lexeme may stand there. -/
def next : Stance → Lexeme → Option Stance
  | wanting, .number _ => some given
  | wanting, .keyword _ => some given
  | wanting, .opening => some wanting
  | wanting, .operator o =>
      if o = .plus ∨ o = .minus ∨ o = .not then some wanting else none
  | wanting, .closing => none
  | given, .operator o => if o = .not then none else some wanting
  | given, .closing => some given
  | given, _ => none

/-- The stance after a word. -/
def after (s : Stance) : List Lexeme → Option Stance
  | [] => some s
  | x :: w => (s.next x).bind fun m => m.after w

theorem after_append (s : Stance) (u v : List Lexeme) :
    s.after (u ++ v) = (s.after u).bind fun m => m.after v := by
  induction u generalizing s with
  | nil => rfl
  | cons x u ih =>
      rw [List.cons_append, after, after]
      cases s.next x with
      | none => rfl
      | some m => exact ih m

theorem after_eq_foldlM (s : Stance) (w : List Lexeme) : s.after w = w.foldlM next s := by
  induction w generalizing s with
  | nil => rfl
  | cons x w ih =>
      rw [after, List.foldlM_cons]
      cases s.next x with
      | none => rfl
      | some m => exact ih m

/-- A sign leaves an operand wanted, as a negation does. -/
theorem follows : Follows next wanting wanting given where
  bare := ⟨fun _ => rfl, fun _ => rfl, rfl⟩
  applied := ⟨fun _ => rfl, fun _ => rfl, rfl⟩
  plus := rfl
  minus := rfl
  not := rfl
  join _ hne := if_neg hne
  closing := rfl

end Stance

open Stance

/-- The words of a language give an operand where one is wanted. -/
def GivesOperands {α : Type} (L : Phrases α) : Prop :=
  ∀ w t, L w t → wanting.after w = some given

theorem IntSentence.stance : GivesOperands IntSentence := by
  intro w t hw
  rw [after_eq_foldlM]
  exact Stance.follows.intSentence w t hw

theorem BoolSentence.stance : GivesOperands BoolSentence := by
  intro w t hw
  rw [after_eq_foldlM]
  exact Stance.follows.boolSentence w t hw

section Apart

variable {s t : Stance} {x y : Lexeme} {c : Char}

/-- Letters and digits are all that joins an operand. -/
theorem isAlphanum_of_joinedBy (hx : s.next x = some given) (h : x.JoinedBy c) :
    c.isAlphanum := by
  cases x with
  | number _ =>
      have hdigit : c.isDigit := h
      rw [Char.isAlphanum, hdigit, Bool.or_true]
  | keyword k =>
      have hall : ∀ k ∈ Keyword.all, (Lexeme.keyword k).extensions.all Char.isAlphanum := by
        decide +kernel
      exact List.all_eq_true.mp (hall k k.mem_all) c h
  | operator _ => cases s <;> simp [next] at hx
  | opening => exact h.elim
  | closing => exact h.elim

/-- What may follow an operand begins with no letter and no digit. -/
theorem isAlphanum_of_given (hy : given.next y = some t) (hc : c ∈ y.chars.head?) :
    c.isAlphanum = false := by
  cases y with
  | operator o =>
      have hall : ∀ o ∈ Operator.all, o.text.toList.head?.all (!·.isAlphanum) := by
        decide
      have hhead := (Option.all_eq_true _ _).mp (hall o o.mem_all) c hc
      rwa [Bool.not_eq_true'] at hhead
  | closing =>
      cases hc
      decide
  | number _ => cases hy
  | keyword _ => cases hy
  | opening => cases hy

/-- An equals sign is all that joins a lexeme after which an operand is wanted. -/
theorem eq_equals_of_joinedBy (hx : s.next x = some wanting) (h : x.JoinedBy c) : c = '=' := by
  cases x with
  | operator o =>
      have hall : ∀ o ∈ Operator.all, (Lexeme.operator o).extensions.all (· == '=') := by
        decide +kernel
      exact beq_iff_eq.mp (List.all_eq_true.mp (hall o o.mem_all) c h)
  | number _ => cases s <;> cases hx
  | keyword _ => cases s <;> cases hx
  | opening => exact h.elim
  | closing => exact h.elim

/-- What may stand where an operand is wanted begins with no equals sign. -/
theorem ne_equals_of_wanting (hy : wanting.next y = some t) (hspelled : y.Spelled)
    (hc : c ∈ y.chars.head?) : c ≠ '=' := by
  rintro rfl
  cases y with
  | number digits => exact absurd (hspelled.2 _ (List.mem_of_mem_head? hc)) (by decide)
  | keyword k =>
      have hall : ∀ k ∈ Keyword.all, '=' ∉ k.text.toList.head? := by decide
      exact hall k k.mem_all hc
  | operator o => cases o <;> first | exact absurd hc (by decide) | cases hy
  | opening => exact absurd hc (by decide)
  | closing => cases hy

theorem apart_of_next {m : Stance} (hx : s.next x = some m) (hy : m.next y = some t)
    (hspelled : y.Spelled) : x.Apart y.chars := by
  intro c hc hjoined
  cases m with
  | given =>
      have halphanum := isAlphanum_of_joinedBy hx hjoined
      rw [isAlphanum_of_given hy hc] at halphanum
      cases halphanum
  | wanting => exact ne_equals_of_wanting hy hspelled hc (eq_equals_of_joinedBy hx hjoined)

/-- In a word that has a stance at its end no lexeme joins the one before it. -/
theorem isChain_apart {w : List Lexeme} (h : s.after w = some t)
    (hspelled : ∀ l ∈ w, l.Spelled) : w.IsChain fun l m => l.Apart m.chars := by
  induction w generalizing s with
  | nil => exact .nil
  | cons x w ih =>
      obtain ⟨m, hx, hw⟩ := Option.bind_eq_some_iff.mp h
      cases w with
      | nil => exact .singleton x
      | cons y w =>
          obtain ⟨n, hy, -⟩ := Option.bind_eq_some_iff.mp hw
          exact List.isChain_cons_cons.mpr
            ⟨apart_of_next hx hy (hspelled y (by simp)),
              ih hw fun l hl => hspelled l (List.mem_cons_of_mem x hl)⟩

end Apart

end Grammar

end DateRules
