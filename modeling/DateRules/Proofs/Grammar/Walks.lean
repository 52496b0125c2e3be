import DateRules.Proofs.Grammar.Language

/-!
# Walks through sentences

A walk goes through a word lexeme by lexeme, from one state to the next, and stops at a lexeme
that may not stand where it is met. `Leads` says that it goes through all words of a language and
tells where from and where to. There is one lemma for each way in which the grammar puts words
together.

`Follows` lists the steps that the grammar asks for. With these a walk goes through every
sentence (`Follows.intSentence`, `Follows.boolSentence`), so that a word at which it stops
is none.
-/

namespace DateRules

namespace Grammar

section Combinations

variable {α σ : Type} {next : σ → Lexeme → Option σ} {s m t : σ} {L : Phrases α} {Join : Joins α}
  {Apply : Prefixes α}

/-- All words of a language lead from one state to another. -/
def Leads (next : σ → Lexeme → Option σ) (s t : σ) (L : Phrases α) : Prop :=
  ∀ w a, L w a → w.foldlM next s = some t

theorem foldlM_cons_of_next {x : Lexeme} (h : next s x = some m) (w : List Lexeme) :
    (x :: w).foldlM next s = w.foldlM next m := by
  rw [List.foldlM_cons, h]
  rfl

theorem foldlM_singleton_of_next {x : Lexeme} (h : next s x = some m) :
    [x].foldlM next s = some m := by
  rw [foldlM_cons_of_next h]
  rfl

theorem foldlM_append_of_eq {u : List Lexeme} (h : u.foldlM next s = some m) (v : List Lexeme) :
    (u ++ v).foldlM next s = v.foldlM next m := by
  rw [List.foldlM_append, h]
  rfl

theorem Leads.repeated (hoperand : Leads next s t L)
    (hjoin : ∀ x f, Join x f → next t x = some s) {l a : α} {w : List Lexeme}
    (h : Repeated L Join l w a) : w.foldlM next t = some t := by
  induction h with
  | done a => rfl
  | next join operand _ ih =>
      rw [foldlM_cons_of_next (hjoin _ _ join), foldlM_append_of_eq (hoperand _ _ operand)]
      exact ih

theorem Leads.chain (hoperand : Leads next s t L)
    (hjoin : ∀ x f, Join x f → next t x = some s) : Leads next s t (Chain L Join) := by
  rintro w a ⟨first, rest⟩
  rw [foldlM_append_of_eq (hoperand _ _ first)]
  exact hoperand.repeated hjoin rest

theorem Leads.prefixed (hbare : Leads next s t L) (happlied : Leads next m t L)
    (happly : ∀ x f, Apply x f → next s x = some m) : Leads next s t (Prefixed L Apply) := by
  intro w a h
  cases h with
  | bare operand => exact hbare _ _ operand
  | applied apply operand =>
      rw [foldlM_cons_of_next (happly _ _ apply)]
      exact happlied _ _ operand

end Combinations

section Sentences

variable {σ : Type} {next : σ → Lexeme → Option σ} {s wanting signed given : σ}

/-- The steps from a state in which an operand may begin. -/
structure Begins (next : σ → Lexeme → Option σ) (s wanting given : σ) : Prop where
  number : ∀ digits, next s (.number digits) = some given
  keyword : ∀ k, next s (.keyword k) = some given
  opening : next s .opening = some wanting

/-- The steps that the grammar asks for. An operand is wanted, or it is wanted after a sign, or
one has been given. -/
structure Follows (next : σ → Lexeme → Option σ) (wanting signed given : σ) : Prop where
  bare : Begins next wanting wanting given
  applied : Begins next signed wanting given
  plus : next wanting (.operator .plus) = some signed
  minus : next wanting (.operator .minus) = some signed
  not : next wanting (.operator .not) = some wanting
  join : ∀ o, o ≠ .not → next given (.operator o) = some wanting
  closing : next given .closing = some given

/-- A group leads to the end of an operand if what is inside does. -/
theorem Begins.group (h : Begins next s wanting given) (hclosing : next given .closing = some given)
    {w : List Lexeme} (hinside : w.foldlM next wanting = some given) :
    (Lexeme.opening :: (w ++ [.closing])).foldlM next s = some given := by
  rw [foldlM_cons_of_next h.opening, foldlM_append_of_eq hinside]
  exact foldlM_singleton_of_next hclosing

namespace Follows

variable (h : Follows next wanting signed given)

include h

theorem intChain {M : Phrases IntExpr} (hbare : Leads next wanting given M)
    (hsigned : Leads next signed given M) : Leads next wanting given (IntChain M) := by
  have hsign : ∀ x f, Sign x f → next wanting x = some signed := by
    rintro x f ⟨⟩
    · exact h.plus
    · exact h.minus
  have hproduct : Leads next wanting given (Chain (Prefixed M Sign) ProductJoin) :=
    (hbare.prefixed hsigned hsign).chain (by rintro x f ⟨⟩ <;> exact h.join _ (by decide))
  exact hproduct.chain (by rintro x f ⟨⟩ <;> exact h.join _ (by decide))

theorem intOperand : Leads next wanting given IntOperand ∧ Leads next signed given IntOperand := by
  -- One induction serves for both states, since a group is met in either of them.
  have hboth : ∀ w a, IntOperand w a →
      w.foldlM next wanting = some given ∧ w.foldlM next signed = some given := by
    intro w a hw
    refine IntOperand.least (M := fun w _ => w.foldlM next wanting = some given ∧
      w.foldlM next signed = some given) ?_ ?_ ?_ ?_ hw
    · intro w a _ inside
      have hinside := h.intChain (fun _ _ hv => hv.1) (fun _ _ hv => hv.2) _ _ inside
      exact ⟨h.bare.group h.closing hinside, h.applied.group h.closing hinside⟩
    · intro digits
      exact ⟨foldlM_singleton_of_next (h.bare.number digits),
        foldlM_singleton_of_next (h.applied.number digits)⟩
    · intro q
      exact ⟨foldlM_singleton_of_next (h.bare.keyword _),
        foldlM_singleton_of_next (h.applied.keyword _)⟩
    · intro d short
      exact ⟨foldlM_singleton_of_next (h.bare.keyword _),
        foldlM_singleton_of_next (h.applied.keyword _)⟩
  exact ⟨fun w a hw => (hboth w a hw).1, fun w a hw => (hboth w a hw).2⟩

theorem intSentence : Leads next wanting given IntSentence :=
  h.intChain h.intOperand.1 h.intOperand.2

theorem comparison : Leads next wanting given Comparison := by
  rintro w t ⟨left, relation, right⟩
  have hrelation : ∀ x f, Relation x f → next given x = some wanting := by
    rintro x f ⟨⟩ <;> exact h.join _ (by decide)
  rw [foldlM_append_of_eq (h.intSentence _ _ left),
    foldlM_cons_of_next (hrelation _ _ relation)]
  exact h.intSentence _ _ right

theorem boolChain {M : Phrases BoolExpr} (hM : Leads next wanting given M) :
    Leads next wanting given (BoolChain M) := by
  have hnegation : ∀ x f, Negation x f → next wanting x = some wanting := by
    rintro x f ⟨⟩
    exact h.not
  have hjunction : Leads next wanting given (Chain (Prefixed M Negation) JunctionJoin) :=
    (hM.prefixed hM hnegation).chain (by rintro x f ⟨⟩ <;> exact h.join _ (by decide))
  exact hjunction.chain (by rintro x f ⟨⟩ <;> exact h.join _ (by decide))

theorem boolOperand : Leads next wanting given BoolOperand := by
  intro w t hw
  refine BoolOperand.least (M := fun w _ => w.foldlM next wanting = some given) ?_ ?_ ?_ ?_ hw
  · intro w t _ inside
    exact h.bare.group h.closing (h.boolChain (fun _ _ hv => hv) _ _ inside)
  · intro value
    exact foldlM_singleton_of_next (h.bare.keyword _)
  · intro s
    exact foldlM_singleton_of_next (h.bare.keyword _)
  · intro w t comparison
    exact h.comparison _ _ comparison

theorem boolSentence : Leads next wanting given BoolSentence := h.boolChain h.boolOperand

end Follows

end Sentences

end Grammar

end DateRules
