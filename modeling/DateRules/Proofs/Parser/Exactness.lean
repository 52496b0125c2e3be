import DateRules.Parser.Source
import DateRules.Proofs.Expr.Height
import DateRules.Proofs.Parser.Sentences

/-!
# The parser accepts the sentences of the grammar

A text is accepted with a tree if its tokens are a sentence that writes the tree
and the tree is not too high. `Parser.readText_sound` needs nothing else. The
converse, `Parser.acceptedOf_readText_iff`, is for token lists on which the parser
does not give up: those with short literals and no more open parentheses than the stack
has room for.

`parse_exact` states both for the two sorts, together with the fact that a list
of lexemes has at most one tree.
-/

namespace DateRules

open Grammar

namespace Parser

section Tokens

variable {α : Type} {p : Parser α} {L : Phrases α} {Ext : Lexeme → Prop}
  {Ok : List Token → Prop}

theorem whole_sound (hp : Takes p L) {tokens : List Token} {t : α}
    (h : p.whole tokens = .ok t) : L (lexemes tokens) t ∧ Readable (lexemes tokens) := by
  unfold whole at h
  split at h
  · cases h
  · next parsed hparsed =>
      split at h
      · next hrest =>
          cases h
          obtain ⟨used, hsplit, hword, hreadable⟩ := hp _ _ hparsed
          rw [hrest, List.append_nil] at hsplit
          subst hsplit
          exact ⟨hword, hreadable⟩
      · cases h

theorem whole_complete (hp : Reads p L Ext Ok) {tokens : List Token} {t : α}
    (hok : Ok tokens) (hword : L (lexemes tokens) t) : p.whole tokens = .ok t := by
  rw [← List.append_nil tokens] at hok
  obtain ⟨hshorter, heq⟩ := hp.complete hword hok (stops_nil Ext)
  have hwhole : p.whole (tokens ++ []) = .ok t := by
    simp only [whole, heq]
  rwa [List.append_nil] at hwhole

theorem whole_steady (hp : Reads p L Ext Ok) {tokens : List Token} {stop : Stop}
    (hok : Ok tokens) (h : p.whole tokens = .error stop) : stop.IsUnexpected := by
  unfold whole at h
  split at h
  · next stop' hstop =>
      cases h
      exact hp.steady hok hstop
  · next parsed hparsed =>
      split at h
      · cases h
      · cases h
        exact ⟨_, _, rfl⟩

end Tokens

section Texts

variable {α : Type} {p : Nat → Parser α} {L : Phrases α} {Ext : Lexeme → Prop}
  {Ok : Nat → List Token → Prop} {room : List Lexeme → Nat} {toExpr : α → Expr} {text : String}
  {t : α}

/-- An accepted text is a sentence with short literals and a tree that is not too
high. -/
theorem readText_sound {L : Nat → Phrases α} (hp : ∀ n, Takes (p n) (L n))
    (h : readText p room toExpr text = .ok t) :
    ∃ tokenized, tokenize text = .ok tokenized ∧
      L (room (lexemes tokenized.tokens)) (lexemes tokenized.tokens) t ∧
      Readable (lexemes tokenized.tokens) ∧ (toExpr t).height ≤ maxHeight := by
  unfold readText at h
  split at h
  · cases h
  · next tokenized htext =>
      split at h
      · cases h
      · next value hwhole =>
          split at h
          · next hdepth =>
              cases h
              rw [Expr.depth_eq_height] at hdepth
              obtain ⟨hword, hreadable⟩ := whole_sound (hp _) hwhole
              exact ⟨tokenized, htext, hword, hreadable, hdepth⟩
          · cases h

theorem acceptedOf_eq_some {r : Except ParseFailure α} :
    acceptedOf r = .ok (some t) ↔ r = .ok t := by
  constructor
  · intro h
    unfold acceptedOf at h
    split at h <;> cases h
    rfl
  · rintro rfl
    rfl

variable {tokenized : Tokenized}

/-- A sentence is accepted if its literals are short, its parentheses few and its
tree not too high. -/
theorem acceptedOf_readText_iff (hp : ∀ n, Reads (p n) L Ext (Ok n))
    (htext : tokenize text = .ok tokenized)
    (hok : Ok (room (lexemes tokenized.tokens)) tokenized.tokens) :
    acceptedOf (readText p room toExpr text) = .ok (some t) ↔
      L (lexemes tokenized.tokens) t ∧ (toExpr t).height ≤ maxHeight := by
  rw [acceptedOf_eq_some]
  constructor
  · intro h
    obtain ⟨other, hother, hword, -, hheight⟩ := readText_sound (fun n => (hp n).takes) h
    obtain rfl : tokenized = other := Except.ok.inj (htext.symm.trans hother)
    exact ⟨hword, hheight⟩
  · rintro ⟨hword, hheight⟩
    rw [← Expr.depth_eq_height] at hheight
    simp only [readText, htext, whole_complete (hp _) hok hword, if_pos hheight]

/-- All other texts are refused, without an error. -/
theorem acceptedOf_readText_eq_none (toExpr : α → Expr) (hp : ∀ n, Reads (p n) L Ext (Ok n))
    (htext : tokenize text = .ok tokenized)
    (hok : Ok (room (lexemes tokenized.tokens)) tokenized.tokens)
    (h : ¬ ∃ t, L (lexemes tokenized.tokens) t ∧ (toExpr t).height ≤ maxHeight) :
    acceptedOf (readText p room toExpr text) = .ok none := by
  simp only [readText, htext]
  split
  · next stop hstop =>
      obtain ⟨wanted, next, rfl⟩ := whole_steady (hp _) hok hstop
      rfl
  · next value hwhole =>
      split
      · next hdepth =>
          rw [Expr.depth_eq_height] at hdepth
          exact absurd ⟨value, (whole_sound (hp _).takes hwhole).1, hdepth⟩ h
      · rfl

end Texts

end Parser

/-- Parentheses that outnumber the closed ones by at most 100 at any place are not
too many for any stack. -/
theorem admissible_of_counts {tokens : List Token} (stack : CallStack) (sort : ExprSort)
    (hdigits : ∀ digits, .number digits ∈ lexemes tokens → digits.length ≤ 4300)
    (hopen : ∀ u, u <+: lexemes tokens → u.count .opening ≤ u.count .closing + 100) :
    Admissible (stack.nesting sort (lexemes tokens)) tokens := by
  have h : Admissible 100 tokens := ⟨openPeak_le_iff.mpr hopen, hdigits⟩
  exact h.mono (stack.le_nesting (by decide) sort _)

/-- On a text whose tokens have short literals and few open parentheses, parsing
on any stack finds exactly the trees of at most 128 levels that the grammar gives to the tokens,
refuses the text if there are none, and there is never more than one. -/
theorem parse_exact (stack : CallStack) {text : String} {tokenized : Tokenized}
    (htext : tokenize text = .ok tokenized)
    (hdigits : ∀ digits, .number digits ∈ lexemes tokenized.tokens → digits.length ≤ 4300)
    (hopen : ∀ u, u <+: lexemes tokenized.tokens → u.count .opening ≤ u.count .closing + 100) :
    (∀ t, BoolExpr.parse? stack text = .ok (some t) ↔
      BoolSentence (lexemes tokenized.tokens) t ∧ t.height ≤ 128) ∧
    ((¬ ∃ t, BoolSentence (lexemes tokenized.tokens) t ∧ t.height ≤ 128) →
      BoolExpr.parse? stack text = .ok none) ∧
    (∀ t, IntExpr.parse? stack text = .ok (some t) ↔
      IntSentence (lexemes tokenized.tokens) t ∧ t.height ≤ 128) ∧
    ((¬ ∃ t, IntSentence (lexemes tokenized.tokens) t ∧ t.height ≤ 128) →
      IntExpr.parse? stack text = .ok none) ∧
    (∀ w t t', BoolSentence w t → BoolSentence w t' → t = t') ∧
    ∀ w t t', IntSentence w t → IntSentence w t' → t = t' := by
  have hbool := admissible_of_counts stack .bool hdigits hopen
  have hint := admissible_of_counts stack .int hdigits hopen
  refine ⟨?_, ?_, ?_, ?_, ?_, ?_⟩
  · intro t
    exact Parser.acceptedOf_readText_iff reads_boolExpr htext hbool
  · exact Parser.acceptedOf_readText_eq_none .bool reads_boolExpr htext hbool
  · intro t
    exact Parser.acceptedOf_readText_iff reads_intExpr htext hint
  · exact Parser.acceptedOf_readText_eq_none .int reads_intExpr htext hint
  · intro w t t' h h'
    exact h.unique h'
  · intro w t t' h h'
    exact h.unique h'

/-- A comparison that begins with a parenthesis. -/
theorem parse_exact_parenthesis :
    BoolExpr.parse? .least "(day) == 1" =
      .ok (some (.compare .equal (.quantity .day) (.literal 1))) := by
  have hsplits : Splits "(day) == 1".toList
      [.opening, .keyword (.quantity .day), .closing, .operator .equal, .number ['1']] := by
    have hspelled : (Lexeme.number ['1']).Spelled :=
      ⟨List.cons_ne_nil _ _, List.forall_mem_singleton.mpr (by decide)⟩
    have hone := splits_nil.lexeme hspelled (Lexeme.apart_nil _)
    have hequal := (hone.blank (c := ' ') (by decide)).lexeme (l := .operator .equal) trivial
      (Lexeme.apart_cons (by decide) _)
    have hclosing := (hequal.blank (c := ' ') (by decide)).lexeme (l := .closing) trivial
      (Lexeme.apart_cons (by decide) _)
    have hday := hclosing.lexeme (l := .keyword (.quantity .day)) trivial
      (Lexeme.apart_cons (by decide) _)
    exact hday.lexeme (l := .opening) trivial (Lexeme.apart_cons (by decide) _)
  obtain ⟨tokenized, htext, hlexemes⟩ := hsplits.tokenize
  have hdigits : ∀ digits, .number digits ∈ lexemes tokenized.tokens → digits.length ≤ 4300 := by
    rw [hlexemes]
    simp
  have hopen : ∀ u, u <+: lexemes tokenized.tokens →
      u.count .opening ≤ u.count .closing + 100 := by
    rw [hlexemes]
    exact openPeak_le_iff.mp (by decide)
  have hexact := parse_exact .least htext hdigits hopen
  refine (hexact.1 _).mpr ⟨?_, by decide⟩
  rw [hlexemes]
  have hday := IntSentence.single (.bare (.quantity .day))
  have hleft := IntSentence.single (.bare (.group hday))
  have hright := IntSentence.single (.bare (.number ['1']))
  exact BoolSentence.single (.bare (.comparison (.mk hleft .equal hright)))

end DateRules
