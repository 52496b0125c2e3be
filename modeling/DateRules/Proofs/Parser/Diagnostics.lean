import DateRules.Proofs.Grammar.Neighbours
import DateRules.Proofs.Parser.Outcomes
import DateRules.Proofs.Token.Quoting
import DateRules.Proofs.Token.Scan

/-!
# What is said of a refused text

`int_correct_prefix` tells the results of the integer reader from the tokens alone: the
diagnosis points at the fault and quotes the token there. `bool_diagnosis_position` tells where
the diagnosis of the boolean reader points instead. `parse_raises` says which texts end in an
error for a number that is too long.
-/

namespace DateRules

open Grammar DateRules.Parser

section Places

variable {text : String} {tokenized : Tokenized} {used rest : List Token} {i k : Nat}

theorem getElem?_of_split (h : tokenized.tokens = used ++ rest) :
    tokenized.tokens[used.length]? = rest.head? := by
  rw [h, List.getElem?_append_right (Nat.le_refl _), Nat.sub_self, List.head?_eq_getElem?]

/-- Later tokens have greater positions, and the end of the text has the greatest. -/
theorem positionOf_lt (htext : tokenize text = .ok tokenized) (hik : i < k)
    (hk : k ≤ tokenized.tokens.length) :
    positionOf tokenized.textEnd tokenized.tokens[i]? <
      positionOf tokenized.textEnd tokenized.tokens[k]? := by
  obtain ⟨s, hreached, hend⟩ := Scan.exists_end text.toList
  rw [← tokenize, htext] at hend
  cases hend with
  | reached _ =>
      have hsound := hreached.sound
      have hi : i < s.tokens.length := Nat.lt_of_lt_of_le hik hk
      have hmem := List.getElem_mem hi
      have hstart : s.tokens[i].position < s.tokens[i].finish :=
        Nat.lt_add_of_pos_right (Lexeme.length_pos (hsound.found _ hmem))
      rw [List.getElem?_eq_getElem hi]
      rcases Nat.lt_or_eq_of_le hk with hlt | heq
      · have hordered := List.pairwise_iff_getElem.mp hsound.ordered i k hi hlt hik
        rw [List.getElem?_eq_getElem hlt]
        exact Nat.lt_of_lt_of_le hstart hordered
      · rw [List.getElem?_eq_none (Nat.le_of_eq heq.symm)]
        exact Nat.lt_of_lt_of_le hstart (hsound.finish_le _ hmem)

end Places

section Sorts

variable {stack : CallStack} {text : String} {tokenized : Tokenized} {k : Nat} {t : IntExpr}

theorem within_of_counts {w : List Lexeme} (stack : CallStack) (sort : ExprSort)
    (hopen : ∀ u, u <+: w → u.count .opening ≤ u.count .closing + 100) :
    Within (stack.nesting sort w) w :=
  Nat.le_trans (openPeak_le_iff.mpr hopen) (stack.le_nesting (by decide) sort w)

theorem viable_intSentence_nil : Viable IntSentence [] :=
  viable_intOperand_nil.mono fun _ _ hw => IntSentence.single (.bare hw)

/-- Reading a number that is too long ends in an error for the diagnosis too. -/
def IntExpr.Raises (stack : CallStack) (text : String) : Prop :=
  ∃ literal, IntExpr.parse? stack text = .error literal ∧
    IntExpr.diagnose stack text = .error literal

theorem IntExpr.raises_of_read {literal : OverlongLiteral}
    (h : IntExpr.read stack text = .error (.overlong literal)) : IntExpr.Raises stack text := by
  refine ⟨literal, ?_, ?_⟩
  · rw [IntExpr.parse?, h]
    rfl
  · rw [IntExpr.diagnose, h]
    rfl

/-- What an integer text with a fault comes to. -/
theorem IntExpr.at_fault (htext : tokenize text = .ok tokenized)
    (hfits : Within (stack.nesting .int (lexemes tokenized.tokens)) (lexemes tokenized.tokens))
    (hk : FaultAt IntSentence (lexemes tokenized.tokens) k) :
    Readable ((lexemes tokenized.tokens).take k) ∧ IntExpr.parse? stack text = .ok none ∧
        (∃ wanted, IntExpr.diagnose stack text = .ok (some
          ⟨.unexpected wanted (lexemes tokenized.tokens)[k]?,
            positionOf tokenized.textEnd tokenized.tokens[k]?⟩)) ∨
      ¬ Readable ((lexemes tokenized.tokens).take k) ∧ IntExpr.Raises stack text := by
  rcases (IntExpr.outcome stack htext).at_fault hfits hk with
    ⟨used, rest, wanted, next, hsplit, rfl, hreadable, hreport, hread⟩ |
      ⟨digits, hmem, hlong, hread⟩
  · obtain rfl := hreport.next_eq
    refine .inl ⟨?_, ?_, wanted, ?_⟩
    · rw [take_lexemes_of_split hsplit]
      exact hreadable
    · rw [IntExpr.parse?, hread]
      rfl
    · rw [lexemes, List.getElem?_map, getElem?_of_split hsplit, IntExpr.diagnose, hread]
      rfl
  · exact .inr ⟨not_readable_iff.mpr ⟨digits, hmem, hlong⟩, IntExpr.raises_of_read hread⟩

/-- What an integer sentence comes to. -/
theorem IntExpr.of_word (htext : tokenize text = .ok tokenized)
    (hfits : Within (stack.nesting .int (lexemes tokenized.tokens)) (lexemes tokenized.tokens))
    (hword : IntSentence (lexemes tokenized.tokens) t) :
    Readable (lexemes tokenized.tokens) ∧
        IntExpr.parse? stack text = .ok (if t.height ≤ maxHeight then some t else none) ∧
        IntExpr.diagnose stack text =
          .ok (if t.height ≤ maxHeight then none else some ⟨.tooManyLevels, 0⟩) ∨
      ¬ Readable (lexemes tokenized.tokens) ∧ IntExpr.Raises stack text := by
  rcases (IntExpr.outcome stack htext).of_word hfits IntSentence.unique hword with
    ⟨hreadable, hread⟩ | ⟨digits, hmem, hlong, hread⟩
  · refine .inl ⟨hreadable, ?_, ?_⟩
    · rw [IntExpr.parse?, hread]
      split <;> rfl
    · rw [IntExpr.diagnose, hread]
      split <;> rfl
  · exact .inr ⟨not_readable_iff.mpr ⟨digits, hmem, hlong⟩, IntExpr.raises_of_read hread⟩

/-- An integer text is refused for the first token that does not go on with any sentence, and
the diagnosis points at it, if no number before it is too long. Where there is no such token
the text is refused only for the height of its tree. -/
theorem int_correct_prefix (stack : CallStack) (htext : tokenize text = .ok tokenized)
    (hopen : ∀ u, u <+: lexemes tokenized.tokens → u.count .opening ≤ u.count .closing + 100) :
    ((∃ t, IntSentence (lexemes tokenized.tokens) t) ∨
      ∃ k, FaultAt IntSentence (lexemes tokenized.tokens) k) ∧
    (∀ k, FaultAt IntSentence (lexemes tokenized.tokens) k →
      ((∃ digits, .number digits ∈ (lexemes tokenized.tokens).take k ∧ 4300 < digits.length) →
        IntExpr.Raises stack text) ∧
      ((∀ digits, .number digits ∈ (lexemes tokenized.tokens).take k → digits.length ≤ 4300) →
        IntExpr.parse? stack text = .ok none ∧
        ∃ d wanted, IntExpr.diagnose stack text = .ok (some d) ∧
          d.position = positionOf tokenized.textEnd tokenized.tokens[k]? ∧
          d.message = "Expected " ++ Expectation.text wanted ++ ", found " ++
            (lexemes tokenized.tokens)[k]?.elim "end of input" fun l => "'" ++ l.text ++ "'")) ∧
    ∀ t, IntSentence (lexemes tokenized.tokens) t →
      (¬ ∃ k, FaultAt IntSentence (lexemes tokenized.tokens) k) ∧
      ((∃ digits, .number digits ∈ lexemes tokenized.tokens ∧ 4300 < digits.length) →
        IntExpr.Raises stack text) ∧
      ((∀ digits, .number digits ∈ lexemes tokenized.tokens → digits.length ≤ 4300) →
        IntExpr.parse? stack text = .ok (if t.height ≤ 128 then some t else none) ∧
        IntExpr.diagnose stack text =
          .ok (if t.height ≤ 128 then none else some ⟨.tooManyLevels, 0⟩)) := by
  have hfits := within_of_counts stack .int hopen
  refine ⟨exists_word_or_faultAt viable_intSentence_nil _, ?_, ?_⟩
  · intro k hk
    rcases IntExpr.at_fault htext hfits hk with ⟨hread, hnone, wanted, hsome⟩ | ⟨hlong, hraises⟩
    · refine ⟨fun hlong => absurd hread (not_readable_iff.mpr hlong), fun _ => ⟨hnone, ?_⟩⟩
      have hspelled : ∀ l ∈ (lexemes tokenized.tokens)[k]?, l.Spelled := fun l hl =>
        spelled_of_tokenizeFrom htext l (List.mem_of_getElem? hl)
      have hquoted := Complaint.describeFound_spelled hspelled
      exact ⟨_, wanted, hsome, rfl, congrArg (_ ++ ·) hquoted⟩
    · exact ⟨fun _ => hraises, fun hread => absurd hread hlong⟩
  · intro t hword
    refine ⟨fun ⟨k, hk⟩ => hk.not_word hword, ?_⟩
    rcases IntExpr.of_word htext hfits hword with ⟨hread, hanswers⟩ | ⟨hlong, hraises⟩
    · exact ⟨fun hlong => absurd hread (not_readable_iff.mpr hlong), fun _ => hanswers⟩
    · exact ⟨fun _ => hraises, fun hread => absurd hread hlong⟩

/-- A word in which a lexeme stands where none of its kind may is not viable. -/
theorem not_viable_of_stance {α : Type} {L : Phrases α} {u : List Lexeme}
    (hL : GivesOperands L) (h : Stance.wanting.after u = none) : ¬ Viable L u := by
  rintro ⟨v, t, hword⟩
  have hgiven := hL _ _ hword
  rw [Stance.after_append, h] at hgiven
  cases hgiven

/-- A closing parenthesis where an operand is missing, with more after it. -/
theorem int_correct_prefix_operand :
    IntExpr.parse? .least "(1 + -) * 2" = .ok none ∧
    ∃ d wanted, IntExpr.diagnose .least "(1 + -) * 2" = .ok (some d) ∧ d.position = 6 ∧
      d.message = "Expected " ++ Expectation.text wanted ++ ", found " ++ "')'" := by
  have htext : tokenize "(1 + -) * 2" =
      .ok ⟨[⟨.opening, 0⟩, ⟨.number ['1'], 1⟩, ⟨.operator .plus, 3⟩, ⟨.operator .minus, 5⟩,
        ⟨.closing, 6⟩, ⟨.operator .times, 8⟩, ⟨.number ['2'], 10⟩], 11⟩ := by
    decide +kernel
  have hviable : Viable IntSentence
      [.opening, .number ['1'], .operator .plus, .operator .minus] := by
    have hone : Chain (Prefixed IntOperand Sign) ProductJoin [.number ['1']] _ :=
      Chain.single (.bare (.number ['1']))
    have htwo : Chain (Prefixed IntOperand Sign) ProductJoin
        [.operator .minus, .number ['2']] _ :=
      Chain.single (.applied .minus (.number ['2']))
    have hinside : IntSentence _ _ := Chain.pair hone SumJoin.plus htwo
    exact ⟨[.number ['2'], .closing], _, IntSentence.single (.bare (.group hinside))⟩
  have hfault : FaultAt IntSentence [.opening, .number ['1'], .operator .plus, .operator .minus,
      .closing, .operator .times, .number ['2']] 4 :=
    ⟨by decide, hviable, fun _ => not_viable_of_stance IntSentence.stance rfl, fun h => nomatch h⟩
  have hexact := int_correct_prefix .least htext (openPeak_le_iff.mp (by decide))
  obtain ⟨hnone, d, wanted, hsome, hposition, hmessage⟩ :=
    (hexact.2.1 4 hfault).2 (by simp [lexemes])
  exact ⟨hnone, d, wanted, hsome, hposition, hmessage⟩

/-- A second reading that stopped at a fault read all there was exactly if that is viable. -/
theorem missed_eq_nil_iff {seen missed rest : List Token}
    (h : seen ++ missed = [] ∨
      Fault IntSentence IntOnward (lexemes seen) (lexemes (missed ++ rest)).head?) :
    missed = [] ↔ Viable IntSentence (lexemes (seen ++ missed)) := by
  constructor
  · rintro rfl
    rw [List.append_nil] at h ⊢
    rcases h with rfl | hfault
    · exact viable_intSentence_nil
    · exact hfault.viable
  · intro hviable
    cases missed with
    | nil => rfl
    | cons token missed =>
        have hfault := h.resolve_left (by simp)
        refine absurd (hviable.shorten ?_) hfault.blocked.not_viable
        rw [lexemes_append, lexemes_cons]
        exact (List.prefix_append_right_inj _).mpr ⟨_, rfl⟩

/-- What was read a second time begins `start` tokens into the list, and the reading got as far
as the list from there on allows. It got to the fault if what it read is viable. -/
theorem BoolReport.place {used rest : List Token} {next : Option Token}
    (h : BoolReport used rest next) (hsplit : tokenized.tokens = used ++ rest) :
    ∃ start length, start + (unclosed (lexemes used)).length = used.length ∧
      length ≤ (unclosed (lexemes used)).length ∧ next = tokenized.tokens[start + length]? ∧
      (unclosed (lexemes used) ≠ [] →
        FaultAt IntSentence ((lexemes tokenized.tokens).drop start) length) ∧
      (length = (unclosed (lexemes used)).length ↔
        Viable IntSentence (unclosed (lexemes used))) := by
  obtain @⟨before, seen, missed, rfl, opened, rfl, reread⟩ := h
  have hlist : tokenized.tokens = (before ++ seen) ++ (missed ++ rest) := by
    simp [hsplit]
  have hlength : (unclosed (lexemes (before ++ (seen ++ missed)))).length =
      seen.length + missed.length := by
    rw [opened, lexemes, List.length_map, List.length_append]
  refine ⟨before.length, seen.length, ?_, ?_, ?_, ?_, ?_⟩
  · rw [hlength, List.length_append, List.length_append]
  · rw [hlength]
    exact Nat.le_add_right _ _
  · rw [← getElem?_of_split hlist, List.length_append]
  · intro hne
    rw [opened] at hne
    have hfault := (reread.resolve_left fun hnil => hne (by rw [hnil]; rfl)).faultAt
    rw [← lexemes_append, lexemes, List.length_map] at hfault
    have hdrop : (lexemes tokenized.tokens).drop before.length =
        lexemes (seen ++ (missed ++ rest)) := by
      rw [lexemes, ← List.map_drop, hlist, List.append_assoc, List.drop_left]
    rw [hdrop]
    exact hfault
  · rw [hlength, opened, ← missed_eq_nil_iff reread, ← List.length_eq_zero_iff]
    omega

/-- The diagnosis of a boolean text with few parentheses points at the token where the part
that the fault leaves open goes wrong as an integer expression. This is the token at the fault
exactly where that part begins some integer expression. -/
theorem bool_diagnosis_position {stack : CallStack} {d : Diagnosis}
    (htext : tokenize text = .ok tokenized)
    (hdigits : ∀ digits, .number digits ∈ lexemes tokenized.tokens → digits.length ≤ 4300)
    (hopen : ∀ u, u <+: lexemes tokenized.tokens → u.count .opening ≤ u.count .closing + 100)
    (h : BoolExpr.diagnose stack text = .ok (some d)) (hlow : d.complaint ≠ .tooManyLevels) :
    ∃ k start length, FaultAt BoolSentence (lexemes tokenized.tokens) k ∧
      start + (unclosed ((lexemes tokenized.tokens).take k)).length = k ∧
      d.position = positionOf tokenized.textEnd tokenized.tokens[start + length]? ∧
      (unclosed ((lexemes tokenized.tokens).take k) ≠ [] →
        FaultAt IntSentence ((lexemes tokenized.tokens).drop start) length) ∧
      (d.position = positionOf tokenized.textEnd tokenized.tokens[k]? ↔
        Viable IntSentence (unclosed ((lexemes tokenized.tokens).take k))) := by
  have hfits := within_of_counts stack .bool hopen
  have houtcome := BoolExpr.outcome stack htext
  rw [BoolExpr.diagnose] at h
  generalize BoolExpr.read stack text = result at h houtcome
  cases houtcome with
  | accepted => cases h
  | tooHigh =>
      cases h
      exact absurd rfl hlow
  | @overlong used rest digits position split _ _ long _ =>
      exact absurd (hdigits digits (mem_of_split split)) (Nat.not_le_of_lt long)
  | nestedTooDeeply split _ deep =>
      refine absurd (Within.of_prefix hfits ?_) deep
      rw [split, lexemes_append]
      exact List.prefix_append _ _
  | @unexpected used rest wanted next split readable fault report =>
      cases h
      obtain ⟨start, length, hstart, hlength, rfl, hreread, hiff⟩ := report.place split
      rw [← take_lexemes_of_split split] at hstart hlength hreread hiff
      refine ⟨used.length, start, length, fault, hstart, rfl, hreread, ?_⟩
      rw [← hiff]
      constructor
      · intro hposition
        have hwithin : used.length ≤ tokenized.tokens.length := by
          rw [split, List.length_append]
          exact Nat.le_add_right _ _
        refine Nat.le_antisymm hlength (Nat.le_of_not_lt fun hlt => ?_)
        have hless :=
          positionOf_lt htext (i := start + length) (k := used.length) (by omega) hwithin
        exact absurd hposition (Nat.ne_of_lt hless)
      · rintro rfl
        rw [hstart]

theorem not_boolSentence_of_open {w : List Lexeme} {t : BoolExpr} (h : openAfter 0 w ≠ some 0) :
    ¬ BoolSentence w t :=
  fun hword => h (hword.balanced 0)

/-- A conjunction in a group that misses an operand: the reading as an integer expression goes
wrong at the relation before it. -/
theorem bool_diagnosis_position_conjunction :
    ∃ d k start length, BoolExpr.diagnose .least "(day == 1 &&" = .ok (some d) ∧ d.position = 5 ∧
      FaultAt BoolSentence [.opening, .keyword (.quantity .day), .operator .equal, .number ['1'],
        .operator .and] k ∧
      (unclosed ([.opening, .keyword (.quantity .day), .operator .equal, .number ['1'],
        .operator .and].take k) ≠ [] →
        FaultAt IntSentence ([.opening, .keyword (.quantity .day), .operator .equal,
          .number ['1'], .operator .and].drop start) length) := by
  have htext : tokenize "(day == 1 &&" =
      .ok ⟨[⟨.opening, 0⟩, ⟨.keyword (.quantity .day), 1⟩, ⟨.operator .equal, 5⟩,
        ⟨.number ['1'], 8⟩, ⟨.operator .and, 10⟩], 12⟩ := by
    decide +kernel
  have hdiagnosis : BoolExpr.diagnose .least "(day == 1 &&" =
      .ok (some ⟨.unexpected .closing (some (.operator .equal)), 5⟩) := by
    decide +kernel
  obtain ⟨k, start, length, hfault, -, -, hreread, -⟩ :=
    bool_diagnosis_position htext (by simp [lexemes]) (openPeak_le_iff.mp (by decide)) hdiagnosis
      (by decide)
  exact ⟨_, k, start, length, hdiagnosis, rfl, hfault, hreread⟩

/-- A group that only misses its closing parenthesis, where the diagnosis points into it. -/
theorem diagnosis_misplaced :
    ∃ tokenized d, tokenize "(true" = .ok tokenized ∧
      BoolExpr.diagnose .least "(true" = .ok (some d) ∧
      FaultAt BoolSentence (lexemes tokenized.tokens) 2 ∧
      positionOf tokenized.textEnd tokenized.tokens[2]? = 5 ∧ d.position = 1 ∧
      d.complaint ≠ .tooManyLevels := by
  have htext : tokenize "(true" = .ok ⟨[⟨.opening, 0⟩, ⟨.keyword (.truth true), 1⟩], 5⟩ := by
    decide +kernel
  have hfault : FaultAt BoolSentence [.opening, .keyword (.truth true)] 2 := by
    have htrue := BoolSentence.single (.bare (.truth true))
    refine ⟨by decide, ?_, fun h => absurd h (by decide), fun _ _ =>
      not_boolSentence_of_open (by decide)⟩
    exact ⟨[.closing], _, BoolSentence.single (.bare (.group htrue))⟩
  have hdiagnosis : BoolExpr.diagnose .least "(true" =
      .ok (some ⟨.unexpected .integer (some (.keyword (.truth true))), 1⟩) := by
    decide +kernel
  exact ⟨_, _, htext, hdiagnosis, hfault, rfl, rfl, by decide⟩

end Sorts

section Raising

variable {stack : CallStack} {text : String} {digits : List Char}

/-- A run of digits is one number. -/
theorem tokenize_digits (h : (Lexeme.number digits).Spelled) :
    ∃ tokenized, tokenize (String.ofList digits) = .ok tokenized ∧
      lexemes tokenized.tokens = [.number digits] := by
  have hsplits := splits_nil.lexeme h (Lexeme.apart_nil _)
  refine Splits.tokenize ?_
  rw [String.toList_ofList]
  rwa [List.append_nil] at hsplits

/-- A run of digits is read as the number that it writes in decimal, unless it is too long. -/
theorem IntExpr.parse?_digits (h : (Lexeme.number digits).Spelled) :
    IntExpr.parse? stack (String.ofList digits) =
      if digits.length ≤ maxDigits then .ok (some (.literal (Nat.ofDigitChars 10 digits 0)))
      else .error ⟨digits.length⟩ := by
  obtain ⟨tokenized, htext, hlexemes⟩ := tokenize_digits h
  have houtcome := IntExpr.outcome stack htext
  have hword := IntSentence.single (.bare (.number digits))
  rw [← hlexemes] at hword
  have hfits : ∀ n, Within n (lexemes tokenized.tokens) := by
    rw [hlexemes]
    exact Nat.zero_le
  rcases houtcome.of_word (hfits _) IntSentence.unique hword with
    ⟨hreadable, hread⟩ | ⟨digits', hmem, hlong, hread⟩
  · rw [hlexemes] at hreadable
    rw [IntExpr.parse?, hread, if_pos (hreadable digits (List.mem_singleton_self _))]
    rfl
  · rw [hlexemes] at hmem
    obtain rfl := Lexeme.number.inj (List.mem_singleton.mp hmem)
    rw [IntExpr.parse?, hread, if_neg (Nat.not_le_of_lt hlong)]
    rfl

/-- Parsing ends in an error exactly where a number of more than 4300 digits is met before the
text is refused for something else, be it that the stack has no room for the parentheses before
the number. No stack is too small for 130 of them. A run of digits alone is such a text if it has
more than 4300 digits, and else it is read as the number that it writes. -/
theorem parse_raises (stack : CallStack) (text : String) :
    ((∃ literal, IntExpr.parse? stack text = .error literal) ↔
      ∃ tokenized u, tokenize text = .ok tokenized ∧ MeetsOverlong IntSentence tokenized u ∧
        openPeak u ≤ stack.nesting .int (lexemes tokenized.tokens)) ∧
    ((∃ literal, BoolExpr.parse? stack text = .error literal) ↔
      ∃ tokenized u, tokenize text = .ok tokenized ∧ MeetsOverlong BoolSentence tokenized u ∧
        openPeak u ≤ stack.nesting .bool (lexemes tokenized.tokens)) ∧
    (∀ tokenized u, tokenize text = .ok tokenized → openPeak u ≤ 130 →
      (MeetsOverlong IntSentence tokenized u →
        ∃ literal, IntExpr.parse? stack text = .error literal) ∧
      (MeetsOverlong BoolSentence tokenized u →
        ∃ literal, BoolExpr.parse? stack text = .error literal)) ∧
    ∀ digits : List Char, digits ≠ [] → (∀ c ∈ digits, Text.isDigit c) →
      IntExpr.parse? stack (String.ofList digits) =
        if digits.length ≤ 4300 then .ok (some (.literal (Nat.ofDigitChars 10 digits 0)))
        else .error ⟨digits.length⟩ := by
  refine ⟨exists_raised_iff (IntExpr.outcome stack), exists_raised_iff (BoolExpr.outcome stack),
    ?_, ?_⟩
  · intro tokenized u htext hfew
    have hfits : ∀ sort, Within (stack.nesting sort (lexemes tokenized.tokens)) u := fun sort =>
      stack.le_nesting hfew sort _
    refine ⟨fun hmeets => ?_, fun hmeets => ?_⟩
    · exact (exists_raised_iff (IntExpr.outcome stack)).mpr
        ⟨tokenized, u, htext, hmeets, hfits .int⟩
    · exact (exists_raised_iff (BoolExpr.outcome stack)).mpr
        ⟨tokenized, u, htext, hmeets, hfits .bool⟩
  · intro digits hne hdigits
    exact IntExpr.parse?_digits ⟨hne, hdigits⟩

theorem IntExpr.parse?_ones {n : Nat} (h : maxDigits < n) :
    IntExpr.parse? stack (String.ofList (List.replicate n '1')) = .error ⟨n⟩ := by
  have hspelled : (Lexeme.number (List.replicate n '1')).Spelled := by
    have hlength : 0 < (List.replicate n '1').length := by
      rw [List.length_replicate]
      exact Nat.zero_lt_of_lt h
    refine ⟨List.ne_nil_of_length_pos hlength, fun c hc => ?_⟩
    obtain rfl := List.eq_of_mem_replicate hc
    decide
  have hparse := @IntExpr.parse?_digits stack _ hspelled
  rwa [List.length_replicate, if_neg (Nat.not_le_of_lt h)] at hparse

/-- One digit more than is read. -/
theorem parse_raises_ones :
    IntExpr.parse? .least (String.ofList (List.replicate 4301 '1')) = .error ⟨4301⟩ :=
  IntExpr.parse?_ones (Nat.lt_succ_self 4300)

end Raising

end DateRules
