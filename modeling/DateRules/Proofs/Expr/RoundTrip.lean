import DateRules.Proofs.Expr.Spelling
import DateRules.Proofs.Parser.Acceptance

/-!
# Rendering and parsing

A rendered tree is parsed to the tree itself, if its integer literals have no sign
and at most 4300 digits and the tree has at most 128 levels; `parse_render` says
so, and also that parsing yields no other trees.

The spelling of a tree is a sentence that writes the tree (`spelling_derives`). It
opens no more parentheses at once than the tree has levels (`fits_spelling`).
-/

namespace DateRules

open Grammar

section Derivations

variable {u v : List Lexeme}

theorem Arithmetic.derives (op : Arithmetic) {l r : IntExpr} (hl : Prefixed IntOperand Sign u l)
    (hr : Prefixed IntOperand Sign v r) :
    IntSentence (u ++ .operator op.operator :: v) (.arith op l r) := by
  cases op with
  | add => exact .pair (.single hl) .plus (.single hr)
  | subtract => exact .pair (.single hl) .minus (.single hr)
  | multiply => exact Chain.single (.pair hl .times hr)
  | divide => exact Chain.single (.pair hl .divide hr)
  | modulo => exact Chain.single (.pair hl .modulo hr)

theorem Connective.derives (op : Connective) {l r : BoolExpr}
    (hl : Prefixed BoolOperand Negation u l) (hr : Prefixed BoolOperand Negation v r) :
    BoolSentence (u ++ .operator op.operator :: v) (.connect op l r) := by
  cases op with
  | and => exact Chain.single (.pair hl .and hr)
  | or => exact Chain.single (.pair hl .or hr)
  | same => exact .pair (.single hl) .equal (.single hr)

theorem Comparison.derives (op : Comparison) {l r : IntExpr} (hl : IntSentence u l)
    (hr : IntSentence v r) :
    Grammar.Comparison (u ++ .operator op.operator :: v) (.compare op l r) := by
  cases op with
  | equal => exact .mk hl .equal hr
  | greater => exact .mk hl .greater hr
  | less => exact .mk hl .less hr

end Derivations

namespace IntExpr

/-- The spelling of an integer expression writes it. Only a negation needs the sign
before the operand. -/
theorem spelling_operand (t : IntExpr) (h : ∀ v ∈ t.literals, 0 ≤ v) :
    Prefixed IntOperand Sign t.spelling t ∧
      ((∀ e, t ≠ .negate e) → IntOperand t.spelling t) := by
  induction t using spelling.induct with
  | case1 v =>
      have hnumber := IntOperand.number (Nat.toDigits 10 v.toNat)
      rw [Nat.ofDigitChars_ten_toDigits, Int.toNat_of_nonneg (h v (List.mem_singleton_self v))]
        at hnumber
      exact ⟨.bare hnumber, fun _ => hnumber⟩
  | case2 q => exact ⟨.bare (.quantity q), fun _ => .quantity q⟩
  | case3 e ih =>
      -- The operand has a sign itself, so that it is one in parentheses only.
      refine ⟨.applied .minus (.group (IntSentence.single (ih h).1)), ?_⟩
      intro hne
      exact absurd rfl (hne _)
  | case4 e hne ih =>
      rw [spelling]
      · refine ⟨.applied .minus ((ih h).2 hne), ?_⟩
        intro hne'
        exact absurd rfl (hne' _)
      · exact hne
  | case5 op l r ihl ihr =>
      have hl := (ihl fun v hv => h v (List.mem_append_left _ hv)).1
      have hr := (ihr fun v hv => h v (List.mem_append_right _ hv)).1
      have hgroup := IntOperand.group (op.derives hl hr)
      exact ⟨.bare hgroup, fun _ => hgroup⟩

theorem spelling_derives (t : IntExpr) (h : ∀ v ∈ t.literals, 0 ≤ v) :
    IntSentence t.spelling t :=
  .single (t.spelling_operand h).1

end IntExpr

namespace BoolExpr

theorem spelling_operand (t : BoolExpr) (h : ∀ v ∈ t.literals, 0 ≤ v) :
    Prefixed BoolOperand Negation t.spelling t ∧
      ((∀ e, t ≠ .not e) → BoolOperand t.spelling t) := by
  induction t using spelling.induct with
  | case1 value => exact ⟨.bare (.truth value), fun _ => .truth value⟩
  | case2 s => exact ⟨.bare (.statement s), fun _ => .statement s⟩
  | case3 e ih =>
      refine ⟨.applied .not (.group (BoolSentence.single (ih h).1)), ?_⟩
      intro hne
      exact absurd rfl (hne _)
  | case4 e hne ih =>
      rw [spelling]
      · refine ⟨.applied .not ((ih h).2 hne), ?_⟩
        intro hne'
        exact absurd rfl (hne' _)
      · exact hne
  | case5 op l r ihl ihr =>
      have hl := (ihl fun v hv => h v (List.mem_append_left _ hv)).1
      have hr := (ihr fun v hv => h v (List.mem_append_right _ hv)).1
      have hgroup := BoolOperand.group (op.derives hl hr)
      exact ⟨.bare hgroup, fun _ => hgroup⟩
  | case6 op l r =>
      have hl := l.spelling_derives fun v hv => h v (List.mem_append_left _ hv)
      have hr := r.spelling_derives fun v hv => h v (List.mem_append_right _ hv)
      have hcomparison := BoolSentence.single (.bare (.comparison (op.derives hl hr)))
      have hgroup := BoolOperand.group hcomparison
      exact ⟨.bare hgroup, fun _ => hgroup⟩

theorem spelling_derives (t : BoolExpr) (h : ∀ v ∈ t.literals, 0 ≤ v) :
    BoolSentence t.spelling t :=
  .single (t.spelling_operand h).1

end BoolExpr

/-- A balanced word opens at most `n` parentheses at once and has short literals. -/
structure Fits (n : Nat) (w : List Lexeme) : Prop where
  balanced : Balanced w
  nesting : openPeak w ≤ n
  readable : Readable w

section Limits

variable {n m : Nat} {u v w : List Lexeme} {o : Operator}

theorem Fits.mono (h : Fits m w) (hle : m ≤ n) : Fits n w :=
  ⟨h.balanced, Nat.le_trans h.nesting hle, h.readable⟩

theorem Fits.shallow (h : Fits n w) : Shallow n w := ⟨h.balanced, h.nesting⟩

theorem Shallow.fits (h : Shallow n w) (hreadable : Readable w) : Fits n w :=
  ⟨h.balanced, h.peak, hreadable⟩

theorem fits_singleton {x : Lexeme} (hplain : IsPlain x) (hreadable : Readable [x]) :
    Fits n [x] :=
  (shallow_singleton hplain).fits hreadable

theorem fits_keyword (k : Keyword) : Fits n [.keyword k] :=
  fits_singleton ⟨Lexeme.noConfusion, Lexeme.noConfusion⟩
    (readable_singleton fun _ => Lexeme.noConfusion)

theorem fits_operator (o : Operator) : Fits n [.operator o] :=
  fits_singleton (IsOperator.isPlain ⟨o, rfl⟩) (readable_singleton fun _ => Lexeme.noConfusion)

theorem Fits.append (hu : Fits n u) (hv : Fits n v) : Fits n (u ++ v) :=
  (hu.shallow.append hv.shallow).fits (readable_append.mpr ⟨hu.readable, hv.readable⟩)

theorem Fits.prefixed (h : Fits n w) : Fits n (.operator o :: w) := (fits_operator o).append h

theorem Fits.grouped (h : Fits n w) : Fits (n + 1) (grouped w) := by
  have hreadable : Readable (DateRules.grouped w) := by
    simpa [DateRules.grouped, Readable] using h.readable
  exact h.shallow.group.fits hreadable

theorem Fits.between (hu : Fits m u) (hv : Fits n v) :
    Fits (max m n) (u ++ .operator o :: v) := by
  have hleft := hu.mono (Nat.le_max_left m n)
  have hright := hv.mono (Nat.le_max_right m n)
  exact hleft.append hright.prefixed

/-- Two operands in parentheses open one more than the operand that opens more. -/
theorem Fits.binary (hu : Fits m u) (hv : Fits n v) :
    Fits (max m n + 1) (DateRules.grouped (u ++ .operator o :: v)) :=
  (hu.between hv).grouped

theorem fits_literalSpelling {v : Int} (h : (Nat.toDigits 10 v.natAbs).length ≤ maxDigits) :
    Fits n (literalSpelling v) := by
  have hnumber : Fits n [.number (Nat.toDigits 10 v.natAbs)] := by
    refine fits_singleton ⟨Lexeme.noConfusion, Lexeme.noConfusion⟩ fun digits hmem => ?_
    obtain rfl := Lexeme.number.inj (List.mem_singleton.mp hmem)
    exact h
  rw [literalSpelling]
  split
  · exact hnumber.prefixed
  · exact hnumber

/-- A rendered integer expression opens no more parentheses at once than it has
levels. -/
theorem IntExpr.fits_signedSpelling (t : IntExpr)
    (h : ∀ v ∈ t.literals, (Nat.toDigits 10 v.natAbs).length ≤ maxDigits) :
    Fits t.height t.signedSpelling := by
  induction t using signedSpelling.induct with
  | case1 v => exact fits_literalSpelling (h v (List.mem_singleton_self v))
  | case2 q => exact fits_keyword _
  | case3 e ih => exact (ih h).grouped.prefixed
  | case4 e hne ih =>
      rw [signedSpelling]
      · exact (ih h).prefixed.mono (Nat.le_succ _)
      · exact hne
  | case5 op l r ihl ihr =>
      have hl := ihl fun v hv => h v (List.mem_append_left _ hv)
      have hr := ihr fun v hv => h v (List.mem_append_right _ hv)
      exact hl.binary hr

theorem BoolExpr.fits_signedSpelling (t : BoolExpr)
    (h : ∀ v ∈ t.literals, (Nat.toDigits 10 v.natAbs).length ≤ maxDigits) :
    Fits t.height t.signedSpelling := by
  induction t using signedSpelling.induct with
  | case1 value => exact fits_keyword _
  | case2 s => exact fits_keyword _
  | case3 e ih => exact (ih h).grouped.prefixed
  | case4 e hne ih =>
      rw [signedSpelling]
      · exact (ih h).prefixed.mono (Nat.le_succ _)
      · exact hne
  | case5 op l r ihl ihr =>
      have hl := ihl fun v hv => h v (List.mem_append_left _ hv)
      have hr := ihr fun v hv => h v (List.mem_append_right _ hv)
      exact hl.binary hr
  | case6 op l r =>
      have hl := l.fits_signedSpelling fun v hv => h v (List.mem_append_left _ hv)
      have hr := r.fits_signedSpelling fun v hv => h v (List.mem_append_right _ hv)
      exact hl.binary hr

theorem Writable.short_natAbs {v : Int} (h : Writable v) :
    (Nat.toDigits 10 v.natAbs).length ≤ maxDigits := by
  have hnonneg := h.nonneg
  have habs : v.natAbs = v.toNat := by omega
  rw [habs]
  exact h.short

theorem IntExpr.fits_spelling (t : IntExpr) (h : ∀ v ∈ t.literals, Writable v) :
    Fits t.height t.spelling := by
  rw [← signedSpelling_of_nonneg fun v hv => (h v hv).nonneg]
  exact t.fits_signedSpelling fun v hv => (h v hv).short_natAbs

theorem BoolExpr.fits_spelling (t : BoolExpr) (h : ∀ v ∈ t.literals, Writable v) :
    Fits t.height t.spelling := by
  rw [← signedSpelling_of_nonneg fun v hv => (h v hv).nonneg]
  exact t.fits_signedSpelling fun v hv => (h v hv).short_natAbs

end Limits

section RoundTrip

variable {α : Type} {p : Nat → Parser α} {L : Phrases α} {Ext : Lexeme → Prop}
  {stack : CallStack} {sort : ExprSort}

/-- A text is accepted with a tree if it spells a short sentence that writes it. -/
theorem Spells.accepted {toExpr : α → Expr} (hp : ∀ n, Reads (p n) L Ext (Admissible n))
    {text : String} {w : List Lexeme} {t : α} (hspells : Spells text w) (hword : L w t)
    (hfits : Fits (toExpr t).height w) (hheight : (toExpr t).height ≤ maxHeight) :
    acceptedOf (Parser.readText p (stack.nesting sort) toExpr text) = .ok (some t) := by
  obtain ⟨tokenized, htext, rfl⟩ := hspells.splits.tokenize
  -- A tree that is not too high has a text that no stack is too small for.
  have hlimits : maxHeight ≤ stack.nesting sort (lexemes tokenized.tokens) :=
    stack.le_nesting (by decide) sort _
  have hshort := hfits.mono (Nat.le_trans hheight hlimits)
  exact (Parser.acceptedOf_readText_iff hp htext ⟨hshort.nesting, hshort.readable⟩).mpr
    ⟨hword, hheight⟩

theorem IntExpr.parse?_render {t : IntExpr} (h : ∀ v ∈ t.literals, Writable v)
    (hheight : t.height ≤ maxHeight) : IntExpr.parse? stack t.render = .ok (some t) := by
  have hnonneg := fun v hv => (h v hv).nonneg
  exact (t.spells hnonneg).accepted reads_intExpr (t.spelling_derives hnonneg)
    (t.fits_spelling h) hheight

theorem BoolExpr.parse?_render {t : BoolExpr} (h : ∀ v ∈ t.literals, Writable v)
    (hheight : t.height ≤ maxHeight) : BoolExpr.parse? stack t.render = .ok (some t) := by
  have hnonneg := fun v hv => (h v hv).nonneg
  exact (t.spells hnonneg).accepted reads_boolExpr (t.spelling_derives hnonneg)
    (t.fits_spelling h) hheight

theorem writable_of_digits {digits : List Char} (hne : digits ≠ [])
    (hdigits : ∀ c ∈ digits, Text.isDigit c) (hshort : digits.length ≤ maxDigits) :
    Writable (Nat.ofDigitChars 10 digits 0) := by
  refine ⟨Int.natCast_nonneg _, ?_⟩
  have hlt := ofDigitChars_lt hdigits 0
  rw [Nat.zero_add, Nat.one_mul] at hlt
  have hpos := List.length_pos_iff.mpr hne
  exact Nat.le_trans ((Nat.length_toDigits_le_iff (by decide) hpos).mpr hlt) hshort

/-- The values in a text with short numbers can be written. -/
theorem writable_of_tokenize {text : String} {tokenized : Tokenized}
    (htext : tokenize text = .ok tokenized) (hreadable : Readable (lexemes tokenized.tokens)) :
    ∀ v ∈ (lexemes tokenized.tokens).filterMap Lexeme.value?, Writable v := by
  intro v hv
  obtain ⟨l, hl, hvalue⟩ := List.mem_filterMap.mp hv
  have hspelled := spelled_of_tokenizeFrom htext l hl
  cases l with
  | number digits =>
      cases hvalue
      exact writable_of_digits hspelled.1 hspelled.2 (hreadable digits hl)
  | keyword k =>
      cases k with
      | weekday d short =>
          cases hvalue
          cases d <;> exact ⟨by decide, by decide⟩
      | quantity q => cases hvalue
      | statement s => cases hvalue
      | truth value => cases hvalue
  | operator o => cases hvalue
  | opening => cases hvalue
  | closing => cases hvalue

theorem IntExpr.writable_of_parse? {text : String} {t : IntExpr}
    (h : IntExpr.parse? stack text = .ok (some t)) :
    (∀ v ∈ t.literals, Writable v) ∧ t.height ≤ maxHeight := by
  have hread := Parser.acceptedOf_eq_some.mp h
  obtain ⟨tokenized, htext, hword, hreadable, hheight⟩ :=
    Parser.readText_sound (fun n => (reads_intExpr n).takes) hread
  rw [hword.literals]
  exact ⟨writable_of_tokenize htext hreadable, hheight⟩

theorem BoolExpr.writable_of_parse? {text : String} {t : BoolExpr}
    (h : BoolExpr.parse? stack text = .ok (some t)) :
    (∀ v ∈ t.literals, Writable v) ∧ t.height ≤ maxHeight := by
  have hread := Parser.acceptedOf_eq_some.mp h
  obtain ⟨tokenized, htext, hword, hreadable, hheight⟩ :=
    Parser.readText_sound (fun n => (reads_boolExpr n).takes) hread
  rw [hword.literals]
  exact ⟨writable_of_tokenize htext hreadable, hheight⟩

end RoundTrip

/-- Every tree of at most 128 levels whose integer literals have no sign and at most
4300 digits is what its rendered text is parsed to, and every tree that a text is
parsed to is such a tree. The stacks on which the texts are read do not matter. -/
theorem parse_render (stack : CallStack) :
    (∀ t : IntExpr, (∀ v ∈ t.literals, Writable v) → t.height ≤ 128 →
      IntExpr.parse? stack t.render = .ok (some t)) ∧
    (∀ t : BoolExpr, (∀ v ∈ t.literals, Writable v) → t.height ≤ 128 →
      BoolExpr.parse? stack t.render = .ok (some t)) ∧
    (∀ other text (t : IntExpr), IntExpr.parse? other text = .ok (some t) →
      (∀ v ∈ t.literals, Writable v) ∧ t.height ≤ 128 ∧
        IntExpr.parse? stack t.render = .ok (some t)) ∧
    ∀ other text (t : BoolExpr), BoolExpr.parse? other text = .ok (some t) →
      (∀ v ∈ t.literals, Writable v) ∧ t.height ≤ 128 ∧
        BoolExpr.parse? stack t.render = .ok (some t) := by
  refine ⟨?_, ?_, ?_, ?_⟩
  · intro t h hheight
    exact IntExpr.parse?_render h hheight
  · intro t h hheight
    exact BoolExpr.parse?_render h hheight
  · intro other text t h
    obtain ⟨hwritable, hheight⟩ := IntExpr.writable_of_parse? h
    exact ⟨hwritable, hheight, IntExpr.parse?_render hwritable hheight⟩
  · intro other text t h
    obtain ⟨hwritable, hheight⟩ := BoolExpr.writable_of_parse? h
    exact ⟨hwritable, hheight, BoolExpr.parse?_render hwritable hheight⟩

/-- A comparison of a double negation, whose text begins like a boolean group. -/
theorem parse_render_double_negation :
    BoolExpr.parse? .least "(-(-5) < day)" =
      .ok (some (.compare .less (.negate (.negate (.literal 5))) (.quantity .day))) ∧
    ∃ t, IntExpr.parse? .least "-(-5)" = .ok (some t) ∧
      IntExpr.parse? .least t.render = .ok (some t) := by
  have hfive : ∀ v ∈ [(5 : Int)], Writable v := by
    intro v hv
    obtain rfl := List.mem_singleton.mp hv
    exact ⟨by decide, by decide⟩
  obtain ⟨hint, hbool, hreparse, -⟩ := parse_render .least
  have hnegation := hint (.negate (.negate (.literal 5))) hfive (by decide)
  have htext : (IntExpr.negate (.negate (.literal 5))).render = "-(-5)" := by decide
  have hreparsed := hreparse .least "-(-5)" (.negate (.negate (.literal 5)))
  rw [htext] at hnegation
  refine ⟨?_, _, hnegation, (hreparsed hnegation).2.2⟩
  exact hbool (.compare .less (.negate (.negate (.literal 5))) (.quantity .day)) hfive (by decide)

end DateRules
