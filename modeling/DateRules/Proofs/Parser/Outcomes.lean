import DateRules.Proofs.Parser.Faults

/-!
# What can become of a text

`Outcome` lists what can become of a text that splits into tokens, with what each result says of
the tokens. A text is accepted, has too high a tree, has the fault that is named, or holds a
number that is too long before that fault. Only where too many parentheses are open at once
nothing is said of the fault.

The outcomes exclude one another, as a sentence has no fault and a fault has one place. So where
it is known that a text is a sentence, or where its fault is, the result is known too
(`Outcome.of_word`, `Outcome.at_fault`), and it is an error for a number that is too long exactly
where such a number is met (`Outcome.overlong_iff`).
-/

namespace DateRules

open Grammar DateRules.Parser

section Outcomes

variable {α : Type} {p : Parser α} {L : Phrases α} {Ext : Lexeme → Prop} {R : Report}
  {height : α → Nat} {n : Nat} {text : String} {tokenized : Tokenized}
  {result : Except ParseFailure α} {value : α} {k : Nat}

/-- What becomes of a text with the given tokens, if `n` parentheses may be open at once. -/
inductive Outcome (L : Phrases α) (height : α → Nat) (R : Report) (n : Nat)
    (tokenized : Tokenized) : Except ParseFailure α → Prop
  | accepted {value : α} (word : L (lexemes tokenized.tokens) value)
      (readable : Readable (lexemes tokenized.tokens)) (low : height value ≤ maxHeight) :
      Outcome L height R n tokenized (.ok value)
  | tooHigh {value : α} (word : L (lexemes tokenized.tokens) value)
      (readable : Readable (lexemes tokenized.tokens)) (high : maxHeight < height value) :
      Outcome L height R n tokenized (.error (.refused ⟨.tooManyLevels, 0⟩))
  | unexpected {used rest : List Token} {wanted : Expectation} {next : Option Token}
      (split : tokenized.tokens = used ++ rest) (readable : Readable (lexemes used))
      (fault : FaultAt L (lexemes tokenized.tokens) used.length) (report : R used rest next) :
      Outcome L height R n tokenized (.error (.refused
        ⟨.unexpected wanted (next.map Token.lexeme), positionOf tokenized.textEnd next⟩))
  | overlong {used rest : List Token} {digits : List Char} {position : Nat}
      (split : tokenized.tokens = used ++ ⟨.number digits, position⟩ :: rest)
      (readable : Readable (lexemes used)) (fits : Within n (lexemes used))
      (long : maxDigits < digits.length) (viable : Viable L (lexemes used ++ [.number digits])) :
      Outcome L height R n tokenized (.error (.overlong ⟨digits.length⟩))
  | nestedTooDeeply {used rest : List Token} {position : Nat}
      (split : tokenized.tokens = used ++ rest) (readable : Readable (lexemes used))
      (deep : ¬ Within n (lexemes used)) :
      Outcome L height R n tokenized (.error (.refused ⟨.nestedTooDeeply, position⟩))

theorem Halted.outcome {stop : Stop}
    (h : Halted L Ext (Within n) R tokenized.tokens stop) :
    Outcome L height R n tokenized (.error (stop.toFailure tokenized.textEnd)) := by
  cases h with
  | @unexpected used rest _ _ split readable fits fault report =>
      have hfault := fault.faultAt
      rw [← lexemes_append, ← split, lexemes, List.length_map] at hfault
      exact .unexpected split readable hfault report
  | overlong split readable fits long viable => exact .overlong split readable fits long viable
  | nestedTooDeeply split readable deep _ => exact .nestedTooDeeply split readable deep

theorem Locates.outcome_of_whole (h : Locates p L Ext (Within n) R)
    (hnext : NamesNext L R) {stop : Stop} (hstop : p.whole tokenized.tokens = .error stop) :
    Outcome L height R n tokenized (.error (stop.toFailure tokenized.textEnd)) := by
  unfold Parser.whole at hstop
  split at hstop
  · next stop' herror =>
      cases hstop
      exact (h.halted herror).outcome
  · next r hr =>
      split at hstop
      · cases hstop
      · next token rest hrest =>
          cases hstop
          obtain ⟨used, hsplit, hword, hreadable⟩ := h.takes _ _ hr
          have hsettled := h.settled hr hsplit
          rw [hrest] at hsplit hsettled
          have hfault := hsettled.faultAt (r := lexemes rest) hword
          rw [← lexemes_cons, ← lexemes_append, ← hsplit, lexemes, List.length_map] at hfault
          exact .unexpected hsplit hreadable hfault (hnext used (token :: rest) r.value hword)

/-- The result of reading a text is one of the outcomes. -/
theorem outcome_readText {p : Nat → Parser α} (room : List Lexeme → Nat) (toExpr : α → Expr)
    (h : ∀ n, Locates (p n) L Ext (Within n) R) (hnext : NamesNext L R)
    (htext : tokenize text = .ok tokenized) :
    Outcome L (fun t => (toExpr t).height) R (room (lexemes tokenized.tokens)) tokenized
      (Parser.readText p room toExpr text) := by
  simp only [Parser.readText, htext]
  split
  · next stop hstop => exact (h _).outcome_of_whole hnext hstop
  · next value hwhole =>
      obtain ⟨hword, hreadable⟩ := Parser.whole_sound (h _).takes hwhole
      split
      · next hlow =>
          rw [Expr.depth_eq_height] at hlow
          exact .accepted hword hreadable hlow
      · next hhigh =>
          rw [Expr.depth_eq_height] at hhigh
          exact .tooHigh hword hreadable (Nat.lt_of_not_le hhigh)

theorem not_readable_iff {w : List Lexeme} :
    ¬ Readable w ↔ ∃ digits, .number digits ∈ w ∧ maxDigits < digits.length := by
  simp [Readable]

theorem mem_of_overlong {w u : List Lexeme} {x : Lexeme} (h : u ++ [x] <+: w)
    (hlength : (u ++ [x]).length ≤ k) : x ∈ w.take k := by
  have htake : u ++ [x] <+: w.take k := List.prefix_take_iff.mpr ⟨h, hlength⟩
  exact htake.subset (List.mem_append_right _ (List.mem_singleton_self x))

theorem mem_of_split {used rest : List Token} {token : Token}
    (h : tokenized.tokens = used ++ token :: rest) :
    token.lexeme ∈ lexemes tokenized.tokens := by
  rw [h, lexemes_append, lexemes_cons]
  exact List.mem_append_right _ List.mem_cons_self

theorem prefix_of_split {used rest : List Token} {token : Token}
    (h : tokenized.tokens = used ++ token :: rest) :
    lexemes used ++ [token.lexeme] <+: lexemes tokenized.tokens := by
  rw [h, lexemes_append, lexemes_cons]
  exact (List.prefix_append_right_inj _).mpr ⟨lexemes rest, rfl⟩

theorem take_lexemes_of_split {used rest : List Token}
    (h : tokenized.tokens = used ++ rest) :
    (lexemes tokenized.tokens).take used.length = lexemes used := by
  rw [h, lexemes_append, ← List.length_map Token.lexeme]
  exact List.take_left

/-- Where the parentheses are few a text with a fault is refused for it, or for a number before
it that is too long. -/
theorem Outcome.at_fault (h : Outcome L height R n tokenized result)
    (hfits : Within n (lexemes tokenized.tokens))
    (hk : FaultAt L (lexemes tokenized.tokens) k) :
    (∃ used rest wanted next, tokenized.tokens = used ++ rest ∧ used.length = k ∧
      Readable (lexemes used) ∧ R used rest next ∧
      result = .error (.refused
        ⟨.unexpected wanted (next.map Token.lexeme), positionOf tokenized.textEnd next⟩)) ∨
    ∃ digits, .number digits ∈ (lexemes tokenized.tokens).take k ∧ maxDigits < digits.length ∧
      result = .error (.overlong ⟨digits.length⟩) := by
  cases h with
  | accepted word _ _ => exact absurd word hk.not_word
  | tooHigh word _ _ => exact absurd word hk.not_word
  | unexpected split readable fault report =>
      exact .inl ⟨_, _, _, _, split, fault.unique hk, readable, report, rfl⟩
  | @overlong used rest digits position split _ _ long viable =>
      have hbegins := prefix_of_split split
      exact .inr ⟨digits, mem_of_overlong hbegins (hk.length_le hbegins viable), long, rfl⟩
  | nestedTooDeeply split _ deep =>
      rw [split, lexemes_append] at hfits
      exact absurd hfits.shorten deep

/-- Where the parentheses are few a sentence is accepted if its tree is not too high, unless
one of its numbers is too long. -/
theorem Outcome.of_word (h : Outcome L height R n tokenized result)
    (hfits : Within n (lexemes tokenized.tokens))
    (hunique : ∀ {t t'}, L (lexemes tokenized.tokens) t → L (lexemes tokenized.tokens) t' → t = t')
    (hword : L (lexemes tokenized.tokens) value) :
    (Readable (lexemes tokenized.tokens) ∧
      result = if height value ≤ maxHeight then .ok value
        else .error (.refused ⟨.tooManyLevels, 0⟩)) ∨
    ∃ digits, .number digits ∈ lexemes tokenized.tokens ∧ maxDigits < digits.length ∧
      result = .error (.overlong ⟨digits.length⟩) := by
  cases h with
  | accepted word readable low =>
      obtain rfl := hunique hword word
      exact .inl ⟨readable, (if_pos low).symm⟩
  | tooHigh word readable high =>
      obtain rfl := hunique hword word
      exact .inl ⟨readable, (if_neg (Nat.not_le_of_lt high)).symm⟩
  | unexpected _ _ fault _ => exact absurd hword fault.not_word
  | @overlong used rest digits position split _ _ long _ =>
      exact .inr ⟨digits, mem_of_split split, long, rfl⟩
  | nestedTooDeeply split _ deep =>
      rw [split, lexemes_append] at hfits
      exact absurd hfits.shorten deep

/-- After the words `u` of a text stands a number that is too long, and a word of the language
may go on with it there. -/
def MeetsOverlong (L : Phrases α) (tokenized : Tokenized) (u : List Lexeme) : Prop :=
  ∃ digits, u ++ [.number digits] <+: lexemes tokenized.tokens ∧
    Viable L (u ++ [.number digits]) ∧ maxDigits < digits.length

theorem prefix_of_not_mem {u v w : List Lexeme} {x : Lexeme} (hu : u ++ [x] <+: w) (hv : v <+: w)
    (h : x ∉ v) : v <+: u := by
  rcases Nat.lt_or_ge u.length v.length with hlt | hge
  · have hlength : (u ++ [x]).length ≤ v.length := by
      rw [List.length_append, List.length_singleton]
      exact hlt
    have hbefore := List.prefix_of_prefix_length_le hu hv hlength
    exact absurd (hbefore.subset (List.mem_append_right _ (List.mem_singleton_self x))) h
  · exact List.prefix_of_prefix_length_le hv ((List.prefix_append u [x]).trans hu) hge

/-- Reading ends in an error exactly where such a number is met and not too many parentheses are
open at once before it. -/
theorem Outcome.overlong_iff (h : Outcome L height R n tokenized result) :
    (∃ literal, result = .error (.overlong literal)) ↔
      ∃ u, MeetsOverlong L tokenized u ∧ Within n u := by
  constructor
  · rintro ⟨literal, rfl⟩
    cases h with
    | overlong split _ fits long viable => exact ⟨_, ⟨_, prefix_of_split split, viable, long⟩, fits⟩
  · rintro ⟨u, ⟨digits, hbegins, hviable, hlong⟩, hfits⟩
    have hunreadable : ∀ w, .number digits ∈ w → ¬ Readable w := fun w hmem hread =>
      absurd (hread digits hmem) (Nat.not_le_of_lt hlong)
    have hmem : .number digits ∈ lexemes tokenized.tokens :=
      hbegins.subset (List.mem_append_right _ (List.mem_singleton_self _))
    cases h with
    | accepted _ readable _ => exact absurd readable (hunreadable _ hmem)
    | tooHigh _ readable _ => exact absurd readable (hunreadable _ hmem)
    | @unexpected used rest _ _ split readable fault _ =>
        have hused := mem_of_overlong hbegins (fault.length_le hbegins hviable)
        rw [split, lexemes_append, ← List.length_map, List.take_left] at hused
        exact absurd readable (hunreadable _ hused)
    | overlong => exact ⟨_, rfl⟩
    | @nestedTooDeeply used rest _ split readable deep =>
        have hused : lexemes used <+: lexemes tokenized.tokens := by
          rw [split, lexemes_append]
          exact List.prefix_append _ _
        -- The parser gives up later than it meets the number.
        obtain ⟨v, rfl⟩ := prefix_of_not_mem hbegins hused fun hmem => hunreadable _ hmem readable
        exact absurd hfits.shorten deep

/-- Where the parentheses are few a text is not read past the first number that is too long, if
a word of the language may go on with it there. -/
theorem Outcome.at_overlong (h : Outcome L height R n tokenized result)
    (hfits : Within n (lexemes tokenized.tokens)) {u : List Lexeme} {digits : List Char}
    (hbegins : u ++ [.number digits] <+: lexemes tokenized.tokens) (hreadable : Readable u)
    (hviable : Viable L (u ++ [.number digits])) (hlong : maxDigits < digits.length) :
    result = .error (.overlong ⟨digits.length⟩) := by
  have hmeets := (List.prefix_append u [Lexeme.number digits]).trans hbegins
  obtain ⟨literal, rfl⟩ := h.overlong_iff.mpr
    ⟨u, ⟨digits, hbegins, hviable, hlong⟩, Within.of_prefix hfits hmeets⟩
  cases h with
  | @overlong used rest other position split readable _ long _ =>
      have hother := prefix_of_split split
      have hused := (List.prefix_append (lexemes used) [Lexeme.number other]).trans hother
      have hunreadable : ∀ {w : List Lexeme} {d : List Char}, Readable w →
          maxDigits < d.length → .number d ∉ w := fun hread hlong hmem =>
        absurd (hread _ hmem) (Nat.not_le_of_lt hlong)
      -- Neither of the two numbers stands before the other.
      have hforth := prefix_of_not_mem hbegins hused (hunreadable readable hlong)
      have hback := prefix_of_not_mem hother hmeets (hunreadable hreadable long)
      obtain rfl := hback.eq_of_length_le hforth.length_le
      have hsame := List.prefix_of_prefix_length_le hbegins hother (by simp)
      have hequal := hsame.eq_of_length (by simp)
      obtain rfl : digits = other := by simpa using hequal
      rfl

theorem acceptedOf_eq_error {r : Except ParseFailure α} {literal : OverlongLiteral} :
    acceptedOf r = .error literal ↔ r = .error (.overlong literal) := by
  constructor
  · intro h
    unfold acceptedOf at h
    split at h <;> cases h
    rfl
  · rintro rfl
    rfl

/-- Reading a text ends in an error exactly where its tokens have a number that is too long and
is met on the way. -/
theorem exists_raised_iff {p : Nat → Parser α} {room : List Lexeme → Nat} {toExpr : α → Expr}
    (houtcome : ∀ {tokenized}, tokenize text = .ok tokenized →
      Outcome L height R (room (lexemes tokenized.tokens)) tokenized
        (Parser.readText p room toExpr text)) :
    (∃ literal, acceptedOf (Parser.readText p room toExpr text) = .error literal) ↔
      ∃ tokenized u, tokenize text = .ok tokenized ∧ MeetsOverlong L tokenized u ∧
        Within (room (lexemes tokenized.tokens)) u := by
  simp only [acceptedOf_eq_error]
  constructor
  · rintro ⟨literal, hread⟩
    cases htext : tokenize text with
    | error stray =>
        simp only [Parser.readText, htext] at hread
        cases hread
    | ok tokenized =>
        obtain ⟨u, hmeets⟩ := (houtcome htext).overlong_iff.mp ⟨literal, hread⟩
        exact ⟨tokenized, u, rfl, hmeets⟩
  · rintro ⟨tokenized, u, htext, hmeets⟩
    exact (houtcome htext).overlong_iff.mpr ⟨u, hmeets⟩

/-- A text of short numbers that no tree is written by is refused. -/
theorem Outcome.refused (h : Outcome L height R n tokenized result)
    (hreadable : Readable (lexemes tokenized.tokens))
    (hnone : ∀ t, ¬ L (lexemes tokenized.tokens) t) : acceptedOf result = .ok none := by
  cases h with
  | accepted word _ _ => exact absurd word (hnone _)
  | tooHigh _ _ _ => rfl
  | unexpected _ _ _ _ => rfl
  | @overlong used rest digits position split _ _ long _ =>
      exact absurd (hreadable digits (mem_of_split split)) (Nat.not_le_of_lt long)
  | nestedTooDeeply _ _ _ => rfl

end Outcomes

section Sorts

variable {text : String} {tokenized : Tokenized}

theorem IntExpr.outcome (stack : CallStack) (htext : tokenize text = .ok tokenized) :
    Outcome IntSentence IntExpr.height IntReport (stack.nesting .int (lexemes tokenized.tokens))
      tokenized (IntExpr.read stack text) :=
  outcome_readText _ .int locates_intExpr
    (fun _ _ _ hword => intReport_of_balanced hword.balanced) htext

theorem BoolExpr.outcome (stack : CallStack) (htext : tokenize text = .ok tokenized) :
    Outcome BoolSentence BoolExpr.height BoolReport
      (stack.nesting .bool (lexemes tokenized.tokens)) tokenized (BoolExpr.read stack text) :=
  outcome_readText _ .bool locates_boolExpr
    (fun _ _ _ hword => boolReport_of_balanced hword.balanced) htext

end Sorts

end DateRules
