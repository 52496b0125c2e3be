import DateRules.Proofs.Parser.Faults

/-!
# The two readings of a parenthesis

Where a boolean operand is read and a parenthesis opens, the parenthesis begins a group or the
left side of a comparison. The parser tries the group first. `readings_exclusive` says that it
could as well try the comparison first: at most one of the two readings succeeds, and where one
does the other one is refused by the grammar, so that it is not in the way.

The reading that is refused might go on beyond the tokens of the other one and meet a literal
that is too long or too many parentheses there. It does not, because no word of one language
begins with a word of the other (`Grammar.Comparison.append_ne_group`). All that it sees it has
in common with the reading that succeeds (`Halted.isUnexpected`).
-/

namespace DateRules

open Grammar DateRules.Parser

section Choices

variable {α : Type} {tokens : List Token} {first second : ParseResult α tokens}

/-- The first of two readings that the grammar does not refuse. -/
def firstOf (first second : ParseResult α tokens) : ParseResult α tokens :=
  match first with
  | .error (.unexpected _ _) => second
  | result => result

/-- The grammar refuses the tokens. -/
def Refused (result : ParseResult α tokens) : Prop :=
  ∃ stop, result = .error stop ∧ stop.IsUnexpected

/-- At most one of two readings succeeds, and it makes no difference which of them is tried
first. -/
structure Exclusive (first second : ParseResult α tokens) : Prop where
  not_both : ∀ r s, first = .ok r → second ≠ .ok s
  found : ∀ r, firstOf first second = .ok r ↔ first = .ok r ∨ second = .ok r
  swapped : ∀ r, firstOf second first = .ok r ↔ firstOf first second = .ok r

theorem Refused.ne_ok (h : Refused first) (r : Parsed α tokens) : first ≠ .ok r := by
  obtain ⟨stop, rfl, -⟩ := h
  exact fun hok => nomatch hok

theorem Refused.firstOf_eq (h : Refused first) : firstOf first second = second := by
  obtain ⟨_, rfl, wanted, next, rfl⟩ := h
  rfl

theorem firstOf_eq_ok (hsecond : ∀ r, second = .ok r → Refused first) {r : Parsed α tokens} :
    firstOf first second = .ok r ↔ first = .ok r ∨ second = .ok r := by
  constructor
  · intro h
    unfold firstOf at h
    split at h
    · exact .inr h
    · exact .inl h
  · rintro (rfl | h)
    · rfl
    · rw [(hsecond r h).firstOf_eq, h]

/-- Two readings exclude each other, if the grammar refuses each of them where the other one
succeeds. -/
theorem exclusive_of_refused (hfirst : ∀ r, first = .ok r → Refused second)
    (hsecond : ∀ r, second = .ok r → Refused first) : Exclusive first second where
  not_both r s h := (hfirst r h).ne_ok s
  found _ := firstOf_eq_ok hsecond
  swapped _ := (firstOf_eq_ok hfirst).trans (or_comm.trans (firstOf_eq_ok hsecond).symm)

end Choices

section Prefixes

variable {α : Type} {L : Phrases α} {Ext : Lexeme → Prop} {Fits : List Lexeme → Prop} {R : Report}

/-- What begins a word ends before any other beginning of the list that begins none. -/
theorem Grammar.Viable.prefix_of_not_viable {u c w : List Lexeme} (hu : Viable L u)
    (hc : ¬ Viable L c) (huw : u <+: w) (hcw : c <+: w) : u <+: c :=
  (List.prefix_or_prefix_of_prefix huw hcw).resolve_right fun h => hc (hu.shorten h)

/-- The grammar refuses the tokens, where a part in front that begins no word is readable and
has few parentheses open at once. -/
theorem Halted.isUnexpected {used rest : List Token} {stop : Stop}
    (h : Halted L Ext Fits R (used ++ rest) stop) (hnot : ¬ Viable L (lexemes used))
    (hreadable : Readable (lexemes used)) (hfits : ∀ u, u <+: lexemes used → Fits u) :
    stop.IsUnexpected := by
  have hused : lexemes used <+: lexemes (used ++ rest) := by
    rw [lexemes_append]
    exact List.prefix_append _ _
  cases h with
  | unexpected => exact ⟨_, _, rfl⟩
  | @overlong before tail digits position split _ _ long viable =>
      have hbefore : lexemes before ++ [.number digits] <+: lexemes (used ++ rest) := by
        rw [split, lexemes_append, lexemes_cons]
        exact (List.prefix_append_right_inj _).mpr ⟨lexemes tail, rfl⟩
      have hshort := viable.prefix_of_not_viable hnot hbefore hused
      have hmem : .number digits ∈ lexemes before ++ [.number digits] :=
        List.mem_append_right _ (List.mem_singleton_self _)
      exact absurd (hreadable digits (hshort.subset hmem)) (Nat.not_le_of_gt long)
  | @nestedTooDeeply before tail _ split _ deep viable =>
      have hbefore : lexemes before <+: lexemes (used ++ rest) := by
        rw [split, lexemes_append]
        exact List.prefix_append _ _
      exact absurd (hfits _ (viable.prefix_of_not_viable hnot hbefore hused)) deep

end Prefixes

section Readings

variable {n position : Nat} {rest : List Token}

/-- No comparison begins with a group. -/
theorem not_viable_comparison_group {w : List Lexeme} {t : BoolExpr} (h : BoolSentence w t) :
    ¬ Viable Grammar.Comparison (.opening :: (w ++ [.closing])) := by
  rintro ⟨v, a, hword⟩
  rw [group_append] at hword
  exact hword.append_ne_group h (u := []) (List.append_nil _)

/-- No group begins with a comparison. -/
theorem not_viable_closed_comparison {u : List Lexeme} {t : BoolExpr}
    (h : Grammar.Comparison (.opening :: u) t) : ¬ Viable (Closed BoolSentence) u := by
  rintro ⟨v, a, w, hw, hword⟩
  refine h.append_ne_group (u := v) (s := []) hword ?_
  rw [List.cons_append, hw]

/-- What follows the parenthesis of a group, in at most `n` parentheses. -/
def insideGroup : Nat → Parser BoolExpr
  | 0 => refuseNesting
  | n + 1 => closed (boolExpr n)

/-- The reading of a parenthesis as that of a group. -/
def readGroup (n position : Nat) (rest : List Token) :
    ParseResult BoolExpr (⟨.opening, position⟩ :: rest) :=
  (insideGroup n rest).map (Parsed.after ⟨.opening, position⟩)

/-- The reading of a parenthesis as that of a comparison. -/
def readComparison (n position : Nat) (rest : List Token) :
    ParseResult BoolExpr (⟨.opening, position⟩ :: rest) :=
  relation (intExpr n) (⟨.opening, position⟩ :: rest)

/-- Where a parenthesis opens a boolean operand is a group, or else a comparison. -/
theorem boolOperand_opening (group comparison : Parser BoolExpr) (position : Nat)
    (rest : List Token) :
    boolOperand group comparison (⟨.opening, position⟩ :: rest) =
      firstOf ((group rest).map (Parsed.after ⟨.opening, position⟩))
        (comparison (⟨.opening, position⟩ :: rest)) := by
  rw [boolOperand]
  cases group rest with
  | ok inner => rfl
  | error stop => cases stop <;> rfl

theorem boolPrimary_opening (n position : Nat) (rest : List Token) :
    boolPrimary n (⟨.opening, position⟩ :: rest) =
      firstOf (readGroup n position rest) (readComparison n position rest) := by
  have hoperand : boolPrimary n = boolOperand (insideGroup n) (relation (intExpr n)) := by
    cases n <;> rfl
  rw [hoperand, boolOperand_opening]
  rfl

theorem locates_insideGroup (n : Nat) :
    Locates (insideGroup n) (Closed BoolSentence) Never (fun u => Within n (.opening :: u))
      BoolReport := by
  cases n with
  | zero =>
      have hnever : (fun u => Within 0 (.opening :: u)) = fun _ => False :=
        funext fun _ => eq_false not_within_zero_opening
      rw [hnever]
      exact locates_refuseNesting viable_boolGroup_nil
  | succ n =>
      have hinner : (fun u => Within (n + 1) (.opening :: u)) = Within n :=
        funext fun _ => propext within_opening
      rw [hinner]
      exact locates_boolGroup (locates_boolPrimary n)

theorem takes_insideGroup_shallow (n : Nat) :
    Takes (insideGroup n) fun w _ => Shallow n (.opening :: w) := by
  cases n with
  | zero => exact takes_refuseNesting _
  | succ n =>
      refine (takes_boolExpr_shallow n).closed.mono ?_
      rintro _ _ ⟨w, rfl, hw⟩
      exact hw.group

/-- What was taken of a list that begins with a token begins with it. -/
theorem Taken.exists_cons {α : Type} {L : Phrases α} {token : Token} {r : Parsed α (token :: rest)}
    (h : Taken L (token :: rest) r.value r.rest) :
    ∃ used, rest = used ++ r.rest ∧ L (token.lexeme :: lexemes used) r.value ∧
      Readable (token.lexeme :: lexemes used) := by
  obtain ⟨used, hsplit, hword, hreadable⟩ := h
  cases used with
  | nil =>
      have hshorter := r.rest_shorter
      rw [← List.nil_append r.rest, ← hsplit] at hshorter
      exact absurd hshorter (Nat.lt_irrefl _)
  | cons first used =>
      obtain ⟨rfl, htail⟩ := List.cons.inj hsplit
      exact ⟨used, htail, hword, hreadable⟩

/-- A group and a comparison are not taken from the same parenthesis on. -/
theorem not_taken_both {a b : BoolExpr} {after after' : List Token}
    (hgroup : Taken (Closed BoolSentence) rest a after)
    (hcomparison : Taken Grammar.Comparison (⟨.opening, position⟩ :: rest) b after') : False := by
  obtain ⟨group, rfl, ⟨w, hw, hword⟩, -⟩ := hgroup
  obtain ⟨used, hsplit, hcompared, -⟩ := hcomparison
  refine hcompared.append_ne_group (u := lexemes after') (s := lexemes after) hword ?_
  rw [← lexemes_append, ← hsplit, lexemes_cons, lexemes_append, hw, List.append_assoc]
  rfl

/-- The grammar refuses a group where a comparison is read. -/
theorem refused_readGroup {r : Parsed BoolExpr (⟨.opening, position⟩ :: rest)}
    (h : readComparison n position rest = .ok r) : Refused (readGroup n position rest) := by
  have htakes := (locates_relation (locates_intExpr n) (takes_intExpr_shallow n)).takes
  have htaken := htakes.and (takes_relation_shallow n) _ _ h
  cases hgroup : insideGroup n rest with
  | ok inner =>
      have hinside := (locates_insideGroup n).takes _ _ hgroup
      exact (not_taken_both hinside (htakes _ _ h)).elim
  | error stop =>
      obtain ⟨used, hsplit, ⟨hword, hshallow⟩, hreadable⟩ := htaken.exists_cons
      have hhalted := (locates_insideGroup n).halted hgroup
      rw [hsplit] at hhalted
      refine ⟨stop, ?_, hhalted.isUnexpected (not_viable_closed_comparison hword)
        (readable_append (u := [.opening]).mp hreadable).2 ?_⟩
      · rw [readGroup, hgroup]
        rfl
      · intro u hu
        exact Within.of_prefix hshallow.peak ((List.prefix_cons_inj _).mpr hu)

/-- The grammar refuses a comparison where a group is read. -/
theorem refused_readComparison {r : Parsed BoolExpr (⟨.opening, position⟩ :: rest)}
    (h : readGroup n position rest = .ok r) : Refused (readComparison n position rest) := by
  have hlocates := locates_relation (locates_intExpr n) (takes_intExpr_shallow n)
  cases hgroup : insideGroup n rest with
  | error stop =>
      rw [readGroup, hgroup] at h
      cases h
  | ok inner =>
      have htakes := (locates_insideGroup n).takes
      cases hcomparison : readComparison n position rest with
      | ok s =>
          exact (not_taken_both (htakes _ _ hgroup) (hlocates.takes _ _ hcomparison)).elim
      | error stop =>
          obtain ⟨used, hsplit, ⟨⟨w, hw, hword⟩, hshallow⟩, hreadable⟩ :=
            htakes.and (takes_insideGroup_shallow n) _ _ hgroup
          have hhalted := hlocates.halted hcomparison
          rw [hsplit, ← List.cons_append] at hhalted
          refine ⟨stop, rfl, hhalted.isUnexpected ?_ ?_ ?_⟩
          · rw [lexemes_cons, hw]
            exact not_viable_comparison_group hword
          · exact readable_append.mpr
              ⟨readable_singleton fun _ => Lexeme.noConfusion, hreadable⟩
          · intro u hu
            exact Within.of_prefix hshallow.peak hu

/-- A parenthesis where a boolean operand is read has one reading at most, as a group or as a
comparison, and it is found whichever of the two is tried first. No text is both a boolean and
an integer expression, whatever the stacks on which it is read. -/
theorem readings_exclusive :
    (∀ n position rest,
      boolPrimary n (⟨.opening, position⟩ :: rest) =
          firstOf (readGroup n position rest) (readComparison n position rest) ∧
        Exclusive (readGroup n position rest) (readComparison n position rest)) ∧
    ∀ stack other text, ¬ ((∃ b, BoolExpr.parse? stack text = .ok (some b)) ∧
      ∃ a, IntExpr.parse? other text = .ok (some a)) := by
  refine ⟨fun n position rest => ⟨boolPrimary_opening n position rest,
    exclusive_of_refused (fun _ => refused_readComparison) fun _ => refused_readGroup⟩, ?_⟩
  rintro stack other text ⟨⟨b, hbool⟩, a, hint⟩
  obtain ⟨tokenized, htext, hword, -⟩ := (BoolExpr.accepts stack text b).mp hbool
  obtain ⟨tokenized', htext', hword', -⟩ := (IntExpr.accepts other text a).mp hint
  obtain rfl : tokenized = tokenized' := Except.ok.inj (htext.symm.trans htext')
  exact hword'.not_boolSentence hword

end Readings

end DateRules
