import DateRules.Expr.Eval
import DateRules.Proofs.Expr.RoundTrip
import DateRules.Proofs.Grammar.Walks
import DateRules.Proofs.Parser.Outcomes

/-!
# Negative literals

A number is written without a sign, so a text with a minus before a number is read as a
negation. `IntExpr.signsOut` and `BoolExpr.signsOut` put such a negation in place of every
negative literal, which changes no value (`IntExpr.eval_signsOut`, `BoolExpr.eval_signsOut`).

Rendering puts the operand of a negation in parentheses if it is a negation, but not if it is a
negative literal, which begins with a minus just as well. So rendering writes what the tree
without signs is read from if no negative literal is negated (`IntExpr.spelling_signsOut`,
`BoolExpr.spelling_signsOut`). Else it writes two signs in a row, and this is no sentence:
`SignState` is a walk that stops at the second sign. `parse_render_signed` has both.
-/

namespace DateRules

open Grammar

namespace IntExpr

/-- The expression that the text of an integer is read as. -/
def ofInt (v : Int) : IntExpr :=
  if v < 0 then .negate (.literal v.natAbs) else .literal v

/-- The expression with a negation in place of the sign of each negative literal. -/
def signsOut : IntExpr → IntExpr
  | literal v => ofInt v
  | quantity q => .quantity q
  | negate e => .negate e.signsOut
  | arith op l r => .arith op l.signsOut r.signsOut

def isNegative : IntExpr → Bool
  | literal v => v < 0
  | _ => false

/-- No negative literal is the operand of a negation. -/
def signsApart : IntExpr → Bool
  | literal _ => true
  | quantity _ => true
  | negate e => !e.isNegative && e.signsApart
  | arith _ l r => l.signsApart && r.signsApart

end IntExpr

namespace BoolExpr

def signsOut : BoolExpr → BoolExpr
  | literal value => .literal value
  | statement s => .statement s
  | not e => .not e.signsOut
  | connect op l r => .connect op l.signsOut r.signsOut
  | compare op l r => .compare op l.signsOut r.signsOut

def signsApart : BoolExpr → Bool
  | literal _ => true
  | statement _ => true
  | not e => e.signsApart
  | connect _ l r => l.signsApart && r.signsApart
  | compare _ l r => l.signsApart && r.signsApart

end BoolExpr

section Values

theorem IntExpr.eval_ofInt (d : Date) (v : Int) : (ofInt v).eval d = some v := by
  rw [ofInt]
  split
  · next hneg =>
      have habs : -(v.natAbs : Int) = v := by omega
      rw [eval, eval, Option.map_some, habs]
  · rfl

theorem IntExpr.eval_signsOut (d : Date) (t : IntExpr) : t.signsOut.eval d = t.eval d := by
  induction t with
  | literal v => exact eval_ofInt d v
  | quantity q => rfl
  | negate e ih => rw [signsOut, eval, eval, ih]
  | arith op l r ihl ihr => rw [signsOut, eval, eval, ihl, ihr]

theorem BoolExpr.eval_signsOut (d : Date) (t : BoolExpr) : t.signsOut.eval d = t.eval d := by
  induction t with
  | literal value => rfl
  | statement s => rfl
  | not e ih => rw [signsOut, eval, eval, ih]
  | connect op l r ihl ihr => rw [signsOut, eval, eval, ihl, ihr]
  | compare op l r => rw [signsOut, eval, eval, l.eval_signsOut, r.eval_signsOut]

theorem IntExpr.literals_signsOut (t : IntExpr) :
    t.signsOut.literals = t.literals.map fun v => (v.natAbs : Int) := by
  induction t with
  | literal v =>
      rw [signsOut, ofInt]
      split
      · rfl
      · next hneg =>
          have habs : (v.natAbs : Int) = v := by omega
          rw [literals, List.map_singleton, habs]
  | quantity q => rfl
  | negate e ih => exact ih
  | arith op l r ihl ihr => rw [signsOut, literals, literals, List.map_append, ihl, ihr]

theorem BoolExpr.literals_signsOut (t : BoolExpr) :
    t.signsOut.literals = t.literals.map fun v => (v.natAbs : Int) := by
  induction t with
  | literal value => rfl
  | statement s => rfl
  | not e ih => exact ih
  | connect op l r ihl ihr => rw [signsOut, literals, literals, List.map_append, ihl, ihr]
  | compare op l r =>
      rw [signsOut, literals, literals, List.map_append, l.literals_signsOut,
        r.literals_signsOut]

/-- An integer without its sign can be written if it is not too long. -/
theorem writable_of_mem_map {vs : List Int}
    (h : ∀ v ∈ vs, (Nat.toDigits 10 v.natAbs).length ≤ maxDigits) :
    ∀ v ∈ vs.map fun v => (v.natAbs : Int), Writable v := by
  intro v hv
  obtain ⟨u, hu, rfl⟩ := List.mem_map.mp hv
  exact ⟨Int.natCast_nonneg _, h u hu⟩

end Values

section Spellings

theorem IntExpr.spelling_ofInt (v : Int) : (ofInt v).spelling = literalSpelling v := by
  rw [ofInt, literalSpelling]
  split
  · rfl
  · next hneg =>
      have habs : v.toNat = v.natAbs := by omega
      rw [spelling, habs]

/-- Only negations and negative literals become negations. -/
theorem IntExpr.signsOut_ne_negate {t : IntExpr} (hnegate : ∀ e, t ≠ negate e)
    (hnegative : t.isNegative = false) (e : IntExpr) : t.signsOut ≠ negate e := by
  cases t with
  | literal v =>
      have hnonneg : ¬ v < 0 := of_decide_eq_false hnegative
      rw [signsOut, ofInt, if_neg hnonneg]
      exact IntExpr.noConfusion
  | quantity q => exact IntExpr.noConfusion
  | negate e' => exact absurd rfl (hnegate e')
  | arith op l r => exact IntExpr.noConfusion

/-- Rendering writes the spelling of the expression without signs if no sign meets another. -/
theorem IntExpr.spelling_signsOut {t : IntExpr} (h : t.signsApart = true) :
    t.signsOut.spelling = t.signedSpelling := by
  induction t using signedSpelling.induct with
  | case1 v => exact spelling_ofInt v
  | case2 q => rfl
  | case3 e ih =>
      rw [signsApart, Bool.and_eq_true] at h
      have hinner := ih h.2
      rw [signsOut] at hinner
      rw [signsOut, signsOut, spelling, signedSpelling, hinner]
  | case4 e hne ih =>
      rw [signsApart, Bool.and_eq_true, Bool.not_eq_true'] at h
      rw [signsOut, spelling, signedSpelling, ih h.2]
      · exact hne
      · exact signsOut_ne_negate hne h.1
  | case5 op l r ihl ihr =>
      rw [signsApart, Bool.and_eq_true] at h
      rw [signsOut, spelling, signedSpelling, ihl h.1, ihr h.2]

theorem BoolExpr.spelling_signsOut {t : BoolExpr} (h : t.signsApart = true) :
    t.signsOut.spelling = t.signedSpelling := by
  induction t using signedSpelling.induct with
  | case1 value => rfl
  | case2 s => rfl
  | case3 e ih =>
      have hinner := ih h
      rw [signsOut] at hinner
      rw [signsOut, signsOut, spelling, signedSpelling, hinner]
  | case4 e hne ih =>
      have hne' : ∀ e', e.signsOut ≠ .not e' := by
        cases e with
        | not e' => exact absurd rfl (hne e')
        | _ => exact fun _ => BoolExpr.noConfusion
      rw [signsOut, spelling, signedSpelling, ih h]
      · exact hne
      · exact hne'
  | case5 op l r ihl ihr =>
      rw [signsApart, Bool.and_eq_true] at h
      rw [signsOut, spelling, signedSpelling, ihl h.1, ihr h.2]
  | case6 op l r =>
      rw [signsApart, Bool.and_eq_true] at h
      rw [signsOut, spelling, signedSpelling, IntExpr.spelling_signsOut h.1,
        IntExpr.spelling_signsOut h.2]

end Spellings

/-- Whether an operand is wanted at some place of a word, also after a sign, or has been
given. -/
inductive SignState where
  | wanting
  | signed
  | given

namespace SignState

/-- The state after one more lexeme. All that may not stand anywhere is an operator after a
sign. -/
def next : SignState → Lexeme → Option SignState
  | _, .number _ => some given
  | _, .keyword _ => some given
  | _, .opening => some wanting
  | _, .closing => some given
  | wanting, .operator o => some (if o = .not then wanting else signed)
  | signed, .operator _ => none
  | given, .operator _ => some wanting

theorem follows : Follows next wanting signed given where
  bare := ⟨fun _ => rfl, fun _ => rfl, rfl⟩
  applied := ⟨fun _ => rfl, fun _ => rfl, rfl⟩
  plus := rfl
  minus := rfl
  not := rfl
  join _ _ := rfl
  closing := rfl

/-- The end of a walk that stops unless the condition holds. -/
def endIf (apart : Bool) : Option SignState := if apart then some given else none

section Walks

variable {a b : Bool} {u v w : List Lexeme} {o : Operator}

theorem walk_grouped (h : w.foldlM next wanting = endIf a) (s : SignState) :
    (grouped w).foldlM next s = endIf a := by
  have hopening : s.next .opening = some wanting := by cases s <;> rfl
  rw [grouped, foldlM_cons_of_next hopening, List.foldlM_append, h]
  cases a <;> rfl

theorem walk_binary (hu : u.foldlM next wanting = endIf a) (hv : v.foldlM next wanting = endIf b)
    (s : SignState) :
    (grouped (u ++ .operator o :: v)).foldlM next s = endIf (a && b) := by
  refine walk_grouped ?_ s
  rw [List.foldlM_append, hu]
  cases a with
  | false => rfl
  | true => exact hv

/-- The minus before a negative literal is allowed where no sign comes before it. -/
theorem walk_literal (v : Int) :
    (literalSpelling v).foldlM next wanting = endIf true ∧
      (literalSpelling v).foldlM next signed = endIf (!(IntExpr.literal v).isNegative) := by
  rw [literalSpelling, IntExpr.isNegative]
  split
  · next hneg =>
      rw [decide_eq_true hneg]
      exact ⟨rfl, rfl⟩
  · next hneg =>
      rw [decide_eq_false hneg]
      exact ⟨rfl, rfl⟩

/-- The walk through a rendered integer expression goes on to its end exactly if no sign meets
another. An operand after a sign is no negation, and no negative literal either. -/
theorem walk_int (t : IntExpr) :
    t.signedSpelling.foldlM next wanting = endIf t.signsApart ∧
      ((∀ e, t ≠ .negate e) →
        t.signedSpelling.foldlM next signed = endIf (!t.isNegative && t.signsApart)) := by
  induction t using IntExpr.signedSpelling.induct with
  | case1 v =>
      obtain ⟨hwanting, hsigned⟩ := walk_literal v
      rw [IntExpr.signedSpelling, IntExpr.signsApart, Bool.and_true]
      exact ⟨hwanting, fun _ => hsigned⟩
  | case2 q => exact ⟨rfl, fun _ => rfl⟩
  | case3 e ih =>
      refine ⟨?_, fun hne => absurd rfl (hne _)⟩
      rw [IntExpr.signedSpelling, foldlM_cons_of_next follows.minus, walk_grouped ih.1]
      rfl
  | case4 e hne ih =>
      refine ⟨?_, fun hne => absurd rfl (hne _)⟩
      rw [IntExpr.signedSpelling, foldlM_cons_of_next follows.minus, ih.2 hne]
      · rfl
      · exact hne
  | case5 op l r ihl ihr =>
      exact ⟨walk_binary ihl.1 ihr.1 wanting, fun _ => walk_binary ihl.1 ihr.1 signed⟩

theorem walk_bool (t : BoolExpr) :
    t.signedSpelling.foldlM next wanting = endIf t.signsApart := by
  induction t using BoolExpr.signedSpelling.induct with
  | case1 value => rfl
  | case2 s => rfl
  | case3 e ih =>
      rw [BoolExpr.signedSpelling, foldlM_cons_of_next follows.not]
      exact walk_grouped ih wanting
  | case4 e hne ih =>
      rw [BoolExpr.signedSpelling, foldlM_cons_of_next follows.not, ih]
      · rfl
      · exact hne
  | case5 op l r ihl ihr => exact walk_binary ihl ihr wanting
  | case6 op l r => exact walk_binary (walk_int l).1 (walk_int r).1 wanting

theorem eq_true_of_endIf (h : endIf a = some given) : a = true := by
  cases a with
  | false => cases h
  | true => rfl

end Walks

end SignState

section Sentences

theorem IntExpr.signsApart_of_sentence {t u : IntExpr} (h : IntSentence t.signedSpelling u) :
    t.signsApart = true := by
  have hwalk := SignState.follows.intSentence _ _ h
  rw [(SignState.walk_int t).1] at hwalk
  exact SignState.eq_true_of_endIf hwalk

theorem BoolExpr.signsApart_of_sentence {t u : BoolExpr}
    (h : BoolSentence t.signedSpelling u) : t.signsApart = true := by
  have hwalk := SignState.follows.boolSentence _ _ h
  rw [SignState.walk_bool t] at hwalk
  exact SignState.eq_true_of_endIf hwalk

end Sentences

section Texts

variable {α : Type} {L : Phrases α} {R : Report} {height : α → Nat} {room : Tokenized → Nat}
  {result : Except ParseFailure α}

/-- A text is refused if it spells a word of short numbers that is no sentence. -/
theorem Spells.refused {text : String} {w : List Lexeme} (hspells : Spells text w)
    (hreadable : Readable w) (hnone : ∀ t, ¬ L w t)
    (houtcome : ∀ {tokenized}, tokenize text = .ok tokenized →
      Outcome L height R (room tokenized) tokenized result) : acceptedOf result = .ok none := by
  obtain ⟨tokenized, htext, rfl⟩ := hspells.splits.tokenize
  exact (houtcome htext).refused hreadable hnone

theorem IntExpr.parse?_render_signed {stack : CallStack} {t : IntExpr}
    (hdigits : ∀ v ∈ t.literals, (Nat.toDigits 10 v.natAbs).length ≤ maxDigits)
    (hheight : t.signsOut.height ≤ maxHeight) :
    IntExpr.parse? stack t.render = .ok (if t.signsApart then some t.signsOut else none) := by
  have hspells := t.spells_signed
  split
  · next hapart =>
      have hwritable := writable_of_mem_map hdigits
      rw [← t.literals_signsOut] at hwritable
      rw [← spelling_signsOut hapart] at hspells
      exact hspells.accepted reads_intExpr
        (t.signsOut.spelling_derives fun v hv => (hwritable v hv).nonneg)
        (t.signsOut.fits_spelling hwritable) hheight
  · next hmeet =>
      exact hspells.refused (t.fits_signedSpelling hdigits).readable
        (fun _ hword => hmeet (signsApart_of_sentence hword)) (IntExpr.outcome stack)

theorem BoolExpr.parse?_render_signed {stack : CallStack} {t : BoolExpr}
    (hdigits : ∀ v ∈ t.literals, (Nat.toDigits 10 v.natAbs).length ≤ maxDigits)
    (hheight : t.signsOut.height ≤ maxHeight) :
    BoolExpr.parse? stack t.render = .ok (if t.signsApart then some t.signsOut else none) := by
  have hspells := t.spells_signed
  split
  · next hapart =>
      have hwritable := writable_of_mem_map hdigits
      rw [← t.literals_signsOut] at hwritable
      rw [← spelling_signsOut hapart] at hspells
      exact hspells.accepted reads_boolExpr
        (t.signsOut.spelling_derives fun v hv => (hwritable v hv).nonneg)
        (t.signsOut.fits_spelling hwritable) hheight
  · next hmeet =>
      exact hspells.refused (t.fits_signedSpelling hdigits).readable
        (fun _ hword => hmeet (signsApart_of_sentence hword)) (BoolExpr.outcome stack)

/-- A rendered tree of short literals is parsed to the tree without signs, which has the same
value on every date, unless a negation has a negative literal as its operand: such a text is
refused. -/
theorem parse_render_signed (stack : CallStack) (t : IntExpr) (u : BoolExpr) (d : Date) :
    ((∀ v ∈ t.literals, (Nat.toDigits 10 v.natAbs).length ≤ 4300) → t.signsOut.height ≤ 128 →
      IntExpr.parse? stack t.render = .ok (if t.signsApart then some t.signsOut else none)) ∧
    ((∀ v ∈ u.literals, (Nat.toDigits 10 v.natAbs).length ≤ 4300) → u.signsOut.height ≤ 128 →
      BoolExpr.parse? stack u.render = .ok (if u.signsApart then some u.signsOut else none)) ∧
    t.signsOut.eval d = t.eval d ∧ u.signsOut.eval d = u.eval d := by
  refine ⟨?_, ?_, ?_, ?_⟩
  · intro hdigits hheight
    exact IntExpr.parse?_render_signed hdigits hheight
  · intro hdigits hheight
    exact BoolExpr.parse?_render_signed hdigits hheight
  · exact t.eval_signsOut d
  · exact u.eval_signsOut d

/-- Negative literals on both sides of an operator, and in a sum that is negated. -/
theorem parse_render_signed_sum :
    IntExpr.parse? .least "-(-3 + -4)" =
      .ok (some (.negate (.arith .add (.negate (.literal 3)) (.negate (.literal 4))))) ∧
    BoolExpr.parse? .least "(-3 < (day - -4))" =
      .ok (some (.compare .less (.negate (.literal 3))
        (.arith .subtract (.quantity .day) (.negate (.literal 4))))) := by
  have hshort : ∀ v ∈ [(-3 : Int), -4], (Nat.toDigits 10 v.natAbs).length ≤ 4300 := by
    decide +kernel
  obtain ⟨hsum, hcomparison, -, -⟩ := parse_render_signed .least
    (.negate (.arith .add (.literal (-3)) (.literal (-4))))
    (.compare .less (.literal (-3)) (.arith .subtract (.quantity .day) (.literal (-4)))) .last
  exact ⟨hsum hshort (by decide), hcomparison hshort (by decide)⟩

/-- The negation of a negative literal, whose text is refused, though the tree without signs is
low. -/
theorem parse_render_negated_negative :
    (IntExpr.negate (.literal (-3))).render = "--3" ∧
      (IntExpr.negate (.literal (-3))).signsOut = .negate (.negate (.literal 3)) ∧
      (IntExpr.negate (.literal (-3))).signsOut.height ≤ 128 ∧
      IntExpr.parse? .least (IntExpr.negate (.literal (-3))).render = .ok none ∧
      IntExpr.parse? .least (IntExpr.negate (.literal (-3))).render ≠
        .ok (some (IntExpr.negate (.literal (-3))).signsOut) := by
  have hrefused : IntExpr.parse? .least (IntExpr.negate (.literal (-3))).render = .ok none := by
    decide +kernel
  refine ⟨by decide, by decide, by decide, hrefused, ?_⟩
  rw [hrefused]
  exact fun h => nomatch h

end Texts

end DateRules
