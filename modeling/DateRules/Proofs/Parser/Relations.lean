import DateRules.Proofs.Expr.Absence
import DateRules.Proofs.Expr.RoundTrip
import DateRules.Proofs.Grammar.Neighbours
import DateRules.Proofs.Token.Concatenation

/-!
# Relations between integer expressions

Two integer expressions with the symbol of a relation between them are a boolean
expression, however each of them is written and with or without blanks around the symbol
(`IntRelation.Side.accepted`). Its tree compares the two trees that were there before.

Three of the six relations are the negations of the others. Like these they have a value
where both sides have one, and are true exactly if the values are so related
(`IntRelation.eval_tree_of_some`). `relations_of_texts` says this from text to value.
-/

namespace DateRules

open Grammar Text

/-- The relations between integers that have a symbol. -/
inductive IntRelation where
  | equal
  | unequal
  | atLeast
  | atMost
  | greater
  | less
deriving DecidableEq

namespace IntRelation

/-- The operator that writes a relation. -/
def operator : IntRelation → Operator
  | equal => .equal
  | unequal => .unequal
  | atLeast => .atLeast
  | atMost => .atMost
  | greater => .greater
  | less => .less

/-- Two integers stand in a relation. -/
def Holds (s : IntRelation) (x y : Int) : Prop :=
  match s with
  | equal => x = y
  | unequal => x ≠ y
  | atLeast => x ≥ y
  | atMost => x ≤ y
  | greater => x > y
  | less => x < y

/-- The relation that holds where another one does not. -/
def complement : IntRelation → IntRelation
  | equal => unequal
  | unequal => equal
  | atLeast => less
  | atMost => greater
  | greater => atMost
  | less => atLeast

/-- The tree of a relation between two expressions. -/
def tree (s : IntRelation) (l r : IntExpr) : BoolExpr :=
  match s with
  | equal => .compare .equal l r
  | unequal => .not (.compare .equal l r)
  | atLeast => .not (.compare .less l r)
  | atMost => .not (.compare .greater l r)
  | greater => .compare .greater l r
  | less => .compare .less l r

instance (s : IntRelation) (x y : Int) : Decidable (s.Holds x y) :=
  match s with
  | equal => inferInstanceAs (Decidable (x = y))
  | unequal => inferInstanceAs (Decidable (x ≠ y))
  | atLeast => inferInstanceAs (Decidable (x ≥ y))
  | atMost => inferInstanceAs (Decidable (x ≤ y))
  | greater => inferInstanceAs (Decidable (x > y))
  | less => inferInstanceAs (Decidable (x < y))

theorem holds_complement_iff (s : IntRelation) (x y : Int) :
    s.complement.Holds x y ↔ ¬ s.Holds x y := by
  cases s <;> simp [complement, Holds]

theorem existsUnique_holds (x y : Int) :
    ∃! s : IntRelation, s ∈ [less, equal, greater] ∧ s.Holds x y := by
  have hcases : ∀ s : IntRelation, s ∈ [less, equal, greater] ∧ s.Holds x y ↔
      s = less ∧ x < y ∨ s = equal ∧ x = y ∨ s = greater ∧ y < x := by
    intro s
    cases s <;> simp [Holds]
  simp only [hcases]
  rcases Int.lt_trichotomy x y with hlt | heq | hgt
  · refine ⟨less, .inl ⟨rfl, hlt⟩, ?_⟩
    rintro s (⟨rfl, -⟩ | ⟨-, h⟩ | ⟨-, h⟩)
    · rfl
    · omega
    · omega
  · refine ⟨equal, .inr (.inl ⟨rfl, heq⟩), ?_⟩
    rintro s (⟨-, h⟩ | ⟨rfl, -⟩ | ⟨-, h⟩)
    · omega
    · rfl
    · omega
  · refine ⟨greater, .inr (.inr ⟨rfl, hgt⟩), ?_⟩
    rintro s (⟨-, h⟩ | ⟨-, h⟩ | ⟨rfl, -⟩)
    · omega
    · omega
    · rfl

theorem relation (s : IntRelation) : Relation (.operator s.operator) s.tree := by
  cases s with
  | equal => exact .equal
  | unequal => exact .unequal
  | atLeast => exact .atLeast
  | atMost => exact .atMost
  | greater => exact .greater
  | less => exact .less

theorem height_tree_le (s : IntRelation) (l r : IntExpr) :
    (s.tree l r).height ≤ max l.height r.height + 2 := by
  cases s <;> simp [tree, BoolExpr.height]

section Values

variable {d : Date} {l r : IntExpr} {x y : Int}

/-- A relation has no value exactly where a side has none. -/
theorem eval_tree_eq_none_iff (s : IntRelation) :
    (s.tree l r).eval d = none ↔ l.eval d = none ∨ r.eval d = none := by
  have hnot : ∀ e : BoolExpr, (BoolExpr.not e).eval d = none ↔ e.eval d = none :=
    fun _ => Option.map_eq_none_iff
  cases s <;> simp only [tree, hnot, BoolExpr.eval_compare_eq_none_iff]

theorem eval_tree_of_some (s : IntRelation) (hl : l.eval d = some x) (hr : r.eval d = some y) :
    (s.tree l r).eval d = some (decide (s.Holds x y)) := by
  have hcompare : ∀ op : Comparison, (BoolExpr.compare op l r).eval d = some (op.apply x y) := by
    intro op
    simp only [BoolExpr.eval, hl, hr]
  have hnot : ∀ op : Comparison,
      (BoolExpr.not (.compare op l r)).eval d = some (!op.apply x y) := by
    intro op
    rw [BoolExpr.eval, hcompare, Option.map_some]
  cases s <;> simp only [tree, hcompare, hnot] <;>
    rw [Option.some_inj, Bool.eq_iff_iff, decide_eq_true_iff] <;>
    simp [Comparison.apply, Holds]

/-- Of two relations that exclude each other one is true and one false, or neither has a
value. -/
theorem eval_tree_complement (s : IntRelation) :
    (s.complement.tree l r).eval d = ((s.tree l r).eval d).map (! ·) := by
  cases hl : l.eval d with
  | none =>
      rw [s.eval_tree_eq_none_iff.mpr (.inl hl), s.complement.eval_tree_eq_none_iff.mpr (.inl hl)]
      rfl
  | some x =>
      cases hr : r.eval d with
      | none =>
          rw [s.eval_tree_eq_none_iff.mpr (.inr hr),
            s.complement.eval_tree_eq_none_iff.mpr (.inr hr)]
          rfl
      | some y =>
          rw [s.eval_tree_of_some hl hr, s.complement.eval_tree_of_some hl hr]
          simp [holds_complement_iff]

end Values

section Texts

variable {a b before after : String} {ta tb : Tokenized} {l r : IntExpr}

/-- Only letters and digits join the lexemes of an integer expression. -/
theorem apart_of_isIntegral {x : Lexeme} {rest : List Char} (hx : isIntegral x = true)
    (hbreaks : Lexeme.Breaks rest) : x.Apart rest := by
  intro c hc hjoined
  have halphanum : c.isAlphanum = true := by
    cases x with
    | number digits => exact isAlphanum_of_joinedBy (s := .wanting) rfl hjoined
    | keyword k => exact isAlphanum_of_joinedBy (s := .wanting) rfl hjoined
    | operator o =>
        have hall : ∀ o ∈ Operator.all, isIntegral (.operator o) = true →
            (Lexeme.operator o).extensions = [] := by
          decide
        have hmem : c ∈ (Lexeme.operator o).extensions := hjoined
        rw [hall o o.mem_all hx] at hmem
        cases hmem
    | opening => exact hjoined.elim
    | closing => exact hjoined.elim
  rw [hbreaks c hc] at halphanum
  cases halphanum

/-- An integer expression begins with no equals sign. -/
theorem head_ne_equals (hb : tokenize b = .ok tb) (hr : IntSentence (lexemes tb.tokens) r) :
    ∀ c ∈ b.toList.head?, c ≠ '=' := by
  intro c hc
  obtain ⟨cs, hcs⟩ := List.head?_eq_some_iff.mp hc
  rw [tokenize, hcs] at hb
  rcases head_of_tokenizeFrom hb with hblank | ⟨x, v, hlexemes, hx⟩
  · rintro rfl
    exact absurd hblank (by decide)
  · have hstance := IntSentence.stance _ _ hr
    have hspelled := spelled_of_tokenizeFrom hb x (hlexemes ▸ List.mem_cons_self)
    rw [hlexemes] at hstance
    obtain ⟨m, hnext, -⟩ := Option.bind_eq_some_iff.mp hstance
    exact ne_equals_of_wanting hnext hspelled hx

/-- The symbol of a relation is no part of a number or a keyword before it. -/
theorem breaks_symbol (s : IntRelation) (rest : List Char) :
    Lexeme.Breaks ((Lexeme.operator s.operator).chars ++ rest) := by
  cases s <;> rintro c ⟨⟩ <;> decide

/-- Two integer expressions and the symbol between them are split apart. -/
theorem splits (s : IntRelation) (ha : tokenize a = .ok ta) (hb : tokenize b = .ok tb)
    (hl : IntSentence (lexemes ta.tokens) l) (hr : IntSentence (lexemes tb.tokens) r)
    (hbefore : ∀ c ∈ before.toList, isBlank c) (hafter : ∀ c ∈ after.toList, isBlank c) :
    Splits (a ++ before ++ s.operator.text ++ after ++ b).toList
      (lexemes ta.tokens ++ .operator s.operator :: lexemes tb.tokens) := by
  have hright : Splits b.toList (lexemes tb.tokens) := by
    have h := splits_nil.after hb (by rintro c ⟨⟩) fun x _ => x.apart_nil
    rwa [List.append_nil, List.append_nil] at h
  have hapart : (Lexeme.operator s.operator).Apart (after.toList ++ b.toList) := by
    intro c hc hjoined
    have hwanting : Stance.given.next (.operator s.operator) = some .wanting := by
      cases s <;> rfl
    obtain rfl := eq_equals_of_joinedBy hwanting hjoined
    cases hchars : after.toList with
    | nil =>
        rw [hchars] at hc
        exact head_ne_equals hb hr _ hc rfl
    | cons d ds =>
        rw [hchars] at hc
        cases hc
        exact absurd (hafter '=' (hchars ▸ List.mem_cons_self)) (by decide)
  have hsymbol : Splits _ (.operator s.operator :: lexemes tb.tokens) :=
    (hright.blanks hafter).lexeme trivial hapart
  have hbreaks := Lexeme.breaks_blanks hbefore (s.breaks_symbol (after.toList ++ b.toList))
  have hall := (hsymbol.blanks hbefore).after ha hbreaks fun x hx =>
    apart_of_isIntegral (hl.integral x hx) hbreaks
  rw [Lexeme.chars] at hall
  simpa only [String.toList_append, List.append_assoc] using hall

end Texts

/-- A text that can stand beside the symbol of a relation. It is parsed on some stack to a tree
that leaves room for the relation, and few of its parentheses are open at once. -/
structure Side (stack : CallStack) (text : String) (t : IntExpr) : Prop where
  parsed : IntExpr.parse? stack text = .ok (some t)
  height_le : t.height ≤ 126
  few_open : ∀ tokenized, tokenize text = .ok tokenized → ∀ u, u <+: lexemes tokenized.tokens →
    u.count .opening ≤ u.count .closing + 100

section Sides

variable {stack : CallStack} {a b before after : String} {l r : IntExpr}

theorem side_of_tokenize {tokenized : Tokenized} (htext : tokenize a = .ok tokenized)
    (hpeak : openPeak (lexemes tokenized.tokens) ≤ 100)
    (hparse : IntExpr.parse? stack a = .ok (some l)) (hheight : l.height ≤ 126) :
    Side stack a l := by
  refine ⟨hparse, hheight, fun other hother => ?_⟩
  obtain rfl : tokenized = other := Except.ok.inj (htext.symm.trans hother)
  exact openPeak_le_iff.mp hpeak

theorem Side.sentence (h : Side stack a l) : ∃ tokenized, tokenize a = .ok tokenized ∧
    IntSentence (lexemes tokenized.tokens) l ∧ Fits 100 (lexemes tokenized.tokens) := by
  obtain ⟨tokenized, htext, hsentence, hadmissible, -⟩ := (IntExpr.accepts _ _ _).mp h.parsed
  have hpeak := openPeak_le_iff.mpr (h.few_open tokenized htext)
  exact ⟨tokenized, htext, hsentence, hsentence.balanced, hpeak, hadmissible.readable⟩

/-- Two texts with the symbol of a relation between them are a boolean expression. -/
theorem Side.accepted (ha : Side stack a l) (s : IntRelation) (hb : Side stack b r)
    (hbefore : ∀ c ∈ before.toList, isBlank c) (hafter : ∀ c ∈ after.toList, isBlank c)
    (other : CallStack) :
    BoolExpr.parse? other (a ++ before ++ s.operator.text ++ after ++ b) =
      .ok (some (s.tree l r)) := by
  obtain ⟨ta, hta, hl, hfitsl⟩ := ha.sentence
  obtain ⟨tb, htb, hr, hfitsr⟩ := hb.sentence
  obtain ⟨tokenized, htext, hlexemes⟩ := (s.splits hta htb hl hr hbefore hafter).tokenize
  have hsentence : BoolSentence (lexemes tokenized.tokens) (s.tree l r) := by
    rw [hlexemes]
    exact .single (.bare (.comparison (.mk hl s.relation hr)))
  have hfew : Fits 100 (lexemes tokenized.tokens) := by
    rw [hlexemes]
    exact hfitsl.append hfitsr.prefixed
  have hfits := hfew.mono (other.le_nesting (by decide) .bool (lexemes tokenized.tokens))
  have hsides : max l.height r.height ≤ 126 := Nat.max_le.mpr ⟨ha.height_le, hb.height_le⟩
  have hheight : (s.tree l r).height ≤ maxHeight :=
    Nat.le_trans (s.height_tree_le l r) (Nat.add_le_add_right hsides 2)
  exact (BoolExpr.accepts _ _ _).mpr
    ⟨tokenized, htext, hsentence, ⟨hfits.nesting, hfits.readable⟩, hheight⟩

end Sides

/-- Of the three relations that exclude each other one is true where both sides have a
value. -/
theorem existsUnique_eval_tree {d : Date} {x y : Int} (hl : l.eval d = some x)
    (hr : r.eval d = some y) :
    ∃! s : IntRelation, s ∈ [less, equal, greater] ∧ (s.tree l r).eval d = some true := by
  have htrue : ∀ s : IntRelation, (s.tree l r).eval d = some true ↔ s.Holds x y := by
    intro s
    rw [s.eval_tree_of_some hl hr, Option.some_inj, decide_eq_true_eq]
  simp only [htrue]
  exact existsUnique_holds x y

end IntRelation

open IntRelation

/-- Two texts that are parsed to integer expressions are parsed to a boolean expression when
the symbol of a relation is put between them, with or without blanks around it, on this stack
and on any other. Its value is absent exactly where one of theirs is, and else says whether their
values are so related. -/
theorem relations_of_texts {stack : CallStack} {a b : String} {l r : IntExpr}
    (ha : Side stack a l) (hb : Side stack b r) :
    (∀ (s : IntRelation) (before after : String), (∀ c ∈ before.toList, Text.isBlank c) →
      (∀ c ∈ after.toList, Text.isBlank c) → ∀ other,
      BoolExpr.parse? other (a ++ before ++ s.operator.text ++ after ++ b) =
        .ok (some (s.tree l r))) ∧
    ∀ d : Date,
      (∀ s : IntRelation,
        (s.tree l r).eval d = none ↔ l.eval d = none ∨ r.eval d = none) ∧
      (∀ x y, l.eval d = some x → r.eval d = some y →
        (∀ s : IntRelation, (s.tree l r).eval d = some (decide (s.Holds x y))) ∧
        ∃! s : IntRelation, s ∈ [.less, .equal, .greater] ∧
          (s.tree l r).eval d = some true) ∧
      ∀ s : IntRelation,
        (s.complement.tree l r).eval d = ((s.tree l r).eval d).map (! ·) := by
  refine ⟨?_, ?_⟩
  · intro s before after hbefore hafter other
    exact ha.accepted s hb hbefore hafter other
  · intro d
    refine ⟨?_, ?_, ?_⟩
    · intro s
      exact s.eval_tree_eq_none_iff
    · intro x y hl hr
      exact ⟨fun s => s.eval_tree_of_some hl hr, existsUnique_eval_tree hl hr⟩
    · intro s
      exact s.eval_tree_complement

/-- A side that begins with a parenthesis, and one that has no value in February. -/
theorem relations_of_texts_february :
    let quotient : IntExpr :=
      .arith .divide (.literal 7) (.arith .subtract (.quantity .month) (.literal 2))
    let february : Date := ⟨2024, 2, 29, by decide, by decide, by decide⟩
    let march : Date := ⟨2024, 3, 10, by decide, by decide, by decide⟩
    (Side .least "(day)" (.quantity .day) ∧ Side .least "7 / (month - 2)" quotient) ∧
      BoolExpr.parse? .least "(day)>= 7 / (month - 2)" =
        .ok (some (atLeast.tree (.quantity .day) quotient)) ∧
      (atLeast.tree (.quantity .day) quotient).eval february = none ∧
      (atLeast.tree (.quantity .day) quotient).eval march = some true := by
  intro quotient february march
  have hday : Side .least "(day)" (.quantity .day) := by
    have htext : tokenize "(day)" =
        .ok ⟨[⟨.opening, 0⟩, ⟨.keyword (.quantity .day), 1⟩, ⟨.closing, 4⟩], 5⟩ := by
      decide +kernel
    exact side_of_tokenize htext (by decide) (by decide +kernel) (by decide)
  have hquotient : Side .least "7 / (month - 2)" quotient := by
    have htext : tokenize "7 / (month - 2)" =
        .ok ⟨[⟨.number ['7'], 0⟩, ⟨.operator .divide, 2⟩, ⟨.opening, 4⟩,
          ⟨.keyword (.quantity .month), 5⟩, ⟨.operator .minus, 11⟩, ⟨.number ['2'], 13⟩,
          ⟨.closing, 14⟩], 15⟩ := by
      decide +kernel
    exact side_of_tokenize htext (by decide) (by decide +kernel) (by decide)
  obtain ⟨haccepted, hvalues⟩ := relations_of_texts hday hquotient
  have hbefore : ∀ c ∈ "".toList, Text.isBlank c := List.all_eq_true.mp (by decide)
  have hafter : ∀ c ∈ " ".toList, Text.isBlank c := List.all_eq_true.mp (by decide)
  refine ⟨⟨hday, hquotient⟩, haccepted .atLeast "" " " hbefore hafter _, ?_, ?_⟩
  · exact ((hvalues february).1 .atLeast).mpr (.inr (by decide))
  · exact ((hvalues march).2.1 10 7 (by decide) (by decide)).1 .atLeast

end DateRules
