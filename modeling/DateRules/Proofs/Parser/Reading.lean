import DateRules.Parser.Chain
import DateRules.Proofs.Grammar.Unambiguous
import DateRules.Proofs.Token.Spelling

/-!
# Parsers that read a language

`Reads p L Ext Ok` says that the parser `p` reads the language `L`. Whatever it
takes from the front of a token list is a word of `L`, with the tree that the
word writes. Conversely, on a list with the property `Ok`, a word of `L` is taken
if no lexeme of `Ext` goes on with it, and a parser that stops has met a token
that it did not expect.

The property `Ok` that is needed in the end is `Admissible n`: no literal is too
long and at most `n` parentheses are open at once. A parser may lose it only by
giving up, so it does not enter what is said of the words taken.

There is one lemma for each way to build a parser: `Reads.chainLeft`,
`Reads.prefixed` and `Reads.closed`. What they say of the words taken needs nothing
else, and is stated for `Takes p L` alone.
-/

namespace DateRules

open Grammar DateRules.Parser

/-- The property of a word that none of its literals is too long. -/
def Readable (w : List Lexeme) : Prop :=
  ∀ digits, .number digits ∈ w → digits.length ≤ maxDigits

theorem readable_nil : Readable [] := by
  intro digits h
  exact absurd h List.not_mem_nil

theorem readable_append {u v : List Lexeme} :
    Readable (u ++ v) ↔ Readable u ∧ Readable v := by
  constructor
  · intro h
    exact ⟨fun digits hu => h digits (List.mem_append_left _ hu),
      fun digits hv => h digits (List.mem_append_right _ hv)⟩
  · rintro ⟨hu, hv⟩ digits h
    rcases List.mem_append.mp h with h | h
    · exact hu digits h
    · exact hv digits h

theorem readable_cons_of_isOperator {x : Lexeme} (h : IsOperator x) {w : List Lexeme} :
    Readable (x :: w) ↔ Readable w := by
  obtain ⟨o, rfl⟩ := h
  simp [Readable]

theorem readable_singleton {x : Lexeme} (h : ∀ digits, x ≠ .number digits) :
    Readable [x] := by
  intro digits hmem
  exact absurd (List.mem_singleton.mp hmem).symm (h digits)

/-- The property of a token list that no literal is too long and that at most `n`
parentheses are open at once. -/
structure Admissible (n : Nat) (tokens : List Token) : Prop where
  nesting : openPeak (lexemes tokens) ≤ n
  readable : Readable (lexemes tokens)

theorem Admissible.mono {m n : Nat} {tokens : List Token} (h : Admissible m tokens)
    (hle : m ≤ n) : Admissible n tokens :=
  ⟨Nat.le_trans h.nesting hle, h.readable⟩

theorem Admissible.of_append {n : Nat} {used rest : List Token}
    (hbalanced : Balanced (lexemes used)) (h : Admissible n (used ++ rest)) :
    Admissible n rest := by
  obtain ⟨hnesting, hreadable⟩ := h
  rw [lexemes_append] at hnesting hreadable
  rw [hbalanced.openPeak_append] at hnesting
  exact ⟨Nat.le_trans (Nat.le_max_right _ _) hnesting, (readable_append.mp hreadable).2⟩

/-- An opening parenthesis uses up one of those that may be open. -/
theorem Admissible.of_opening {n position : Nat} {rest : List Token}
    (h : Admissible (n + 1) (⟨.opening, position⟩ :: rest)) : Admissible n rest := by
  obtain ⟨hnesting, hreadable⟩ := h
  refine ⟨?_, (readable_append (u := [.opening]).mp hreadable).2⟩
  simpa [lexemes, openPeak] using hnesting

theorem not_admissible_zero_opening {position : Nat} {rest : List Token} :
    ¬ Admissible 0 (⟨.opening, position⟩ :: rest) := by
  intro h
  have hnesting := h.nesting
  simp [lexemes, openPeak] at hnesting

/-- A parser stopped because it expected something else. -/
def Stop.IsUnexpected (stop : Stop) : Prop := ∃ wanted next, stop = .unexpected wanted next

section Reading

variable {α : Type}

/-- A word of the language was taken from the front of a token list. -/
def Taken (L : Phrases α) (tokens : List Token) (value : α) (rest : List Token) : Prop :=
  ∃ used, tokens = used ++ rest ∧ L (lexemes used) value ∧ Readable (lexemes used)

/-- A lexeme that is a word by itself and no literal is taken. -/
theorem taken_single {L : Phrases α} {token : Token} {rest : List Token} {value : α}
    (hword : L [token.lexeme] value) (hreadable : Readable [token.lexeme]) :
    Taken L (token :: rest) value rest :=
  ⟨[token], rfl, hword, hreadable⟩

theorem taken_keyword {L : Phrases α} {k : Keyword} {position : Nat} {rest : List Token}
    {value : α} (hword : L [.keyword k] value) :
    Taken L (⟨.keyword k, position⟩ :: rest) value rest :=
  taken_single hword (readable_singleton fun _ => Lexeme.noConfusion)

/-- The parser takes nothing but words of the language. -/
def Takes (p : Parser α) (L : Phrases α) : Prop :=
  ∀ (tokens : List Token) (r : Parsed α tokens), p tokens = .ok r →
    Taken L tokens r.value r.rest

theorem Takes.mono {p : Parser α} {L M : Phrases α} (h : Takes p L)
    (hle : ∀ w t, L w t → M w t) : Takes p M := by
  intro tokens r hr
  obtain ⟨used, hsplit, hword, hreadable⟩ := h tokens r hr
  exact ⟨used, hsplit, hle _ _ hword, hreadable⟩

theorem takes_refuseNesting (L : Phrases α) : Takes refuseNesting L := by
  intro tokens r h
  cases h

/-- The parser reads the language, on the token lists with the given property
without giving up. -/
structure Reads (p : Parser α) (L : Phrases α) (Ext : Lexeme → Prop)
    (Ok : List Token → Prop) : Prop where
  sound : ∀ {tokens : List Token} {r : Parsed α tokens}, p tokens = .ok r →
    Taken L tokens r.value r.rest
  complete : ∀ {used rest : List Token} {t : α}, L (lexemes used) t → Ok (used ++ rest) →
    Stops Ext (lexemes rest) → ∃ h, p (used ++ rest) = .ok ⟨t, rest, h⟩
  steady : ∀ {tokens : List Token} {stop : Stop}, Ok tokens → p tokens = .error stop →
    stop.IsUnexpected

theorem Reads.takes {p : Parser α} {L : Phrases α} {Ext : Lexeme → Prop}
    {Ok : List Token → Prop} (h : Reads p L Ext Ok) : Takes p L :=
  fun _ _ hr => h.sound hr

/-- The property of token lists goes over to what is left after a balanced
word. -/
def Inherited (Ok : List Token → Prop) : Prop :=
  ∀ used rest, Balanced (lexemes used) → Ok (used ++ rest) → Ok rest

theorem inherited_admissible (n : Nat) : Inherited (Admissible n) :=
  fun _ _ hbalanced h => h.of_append hbalanced

/-- What a chain needs of its table of operators: the table is that of the
grammar, it holds operators only, and none of these goes on with an operand. -/
structure JoinTable (join : Lexeme → Option (α → α → α)) (Join : Joins α)
    (Ext : Lexeme → Prop) : Prop where
  iff : ∀ x f, join x = some f ↔ Join x f
  operators : OperatorsOnly Join
  fresh : ∀ x f, Join x f → ¬ Ext x

variable {operand : Parser α} {L : Phrases α} {Ext : Lexeme → Prop}
  {Ok : List Token → Prop} {join : Lexeme → Option (α → α → α)} {Join : Joins α}

theorem JoinTable.eq_none {x : Lexeme} {w : List Lexeme} (table : JoinTable join Join Ext)
    (h : Stops (Onward Ext Join) (x :: w)) : join x = none := by
  cases hjoin : join x with
  | none => rfl
  | some f => exact absurd (.inr ⟨f, (table.iff x f).mp hjoin⟩) (stops_cons.mp h)

theorem continueChain_eq_ok_self {tokens : List Token} {left : Parsed α tokens}
    (h : ∀ token rest, left.rest = token :: rest → join token.lexeme = none) :
    continueChain operand join left = .ok left := by
  rw [continueChain]
  split
  · rfl
  · next token rest hrest =>
      rw [h token rest hrest]

theorem continueChain_eq_of_operand {tokens rest : List Token} {token : Token}
    {left : Parsed α tokens} {f : α → α → α} {right : Parsed α rest}
    (hrest : left.rest = token :: rest) (hjoin : join token.lexeme = some f)
    (hoperand : operand rest = .ok right) :
    ∃ h, continueChain operand join left =
      continueChain operand join ⟨f left.value right.value, right.rest, h⟩ := by
  obtain ⟨value, _, hshorter⟩ := left
  subst hrest
  refine ⟨?_, ?_⟩
  · have hright := right.rest_shorter
    rw [List.length_cons] at hshorter
    omega
  · rw [continueChain]
    simp only [hjoin, hoperand]

theorem continueChain_sound (hoperand : Takes operand L)
    (table : JoinTable join Join Ext) {tokens : List Token} {left r : Parsed α tokens}
    (h : continueChain operand join left = .ok r) :
    ∃ used, left.rest = used ++ r.rest ∧ Repeated L Join left.value (lexemes used) r.value ∧
      Readable (lexemes used) := by
  fun_induction continueChain operand join left with
  | case1 left hrest =>
      cases h
      exact ⟨[], rfl, .done _, readable_nil⟩
  | case2 left token rest hrest hjoin =>
      cases h
      exact ⟨[], rfl, .done _, readable_nil⟩
  | case3 => cases h
  | case4 left token rest hrest f hjoin right hright ih =>
      obtain ⟨used₁, hsplit₁, hword, hreadable₁⟩ := hoperand _ _ hright
      obtain ⟨used₂, hsplit₂, hrepeated, hreadable₂⟩ := ih h
      refine ⟨token :: (used₁ ++ used₂), ?_, ?_, ?_⟩
      · rw [hrest, hsplit₁, hsplit₂]
        simp
      · have hchain := Repeated.next ((table.iff _ _).mp hjoin) hword hrepeated
        simpa [lexemes] using hchain
      · have hoperator := table.operators _ _ ((table.iff _ _).mp hjoin)
        rw [lexemes_cons, readable_cons_of_isOperator hoperator, lexemes_append]
        exact readable_append.mpr ⟨hreadable₁, hreadable₂⟩

theorem Takes.chainLeft (hoperand : Takes operand L) (table : JoinTable join Join Ext) :
    Takes (chainLeft operand join) (Chain L Join) := by
  intro tokens r h
  rw [Parser.chainLeft] at h
  split at h
  · cases h
  · next first hfirst =>
      obtain ⟨used₁, hsplit₁, hword, hreadable₁⟩ := hoperand _ _ hfirst
      obtain ⟨used₂, hsplit₂, hrepeated, hreadable₂⟩ := continueChain_sound hoperand table h
      refine ⟨used₁ ++ used₂, ?_, ?_, ?_⟩
      · rw [List.append_assoc, ← hsplit₂]
        exact hsplit₁
      · rw [lexemes_append]
        exact .mk hword hrepeated
      · rw [lexemes_append]
        exact readable_append.mpr ⟨hreadable₁, hreadable₂⟩

theorem continueChain_complete (hoperand : Reads operand L Ext Ok)
    (table : JoinTable join Join Ext) (hinherited : Inherited Ok)
    (hbalanced : BalancedWords L) {l t : α} {w : List Lexeme}
    (h : Repeated L Join l w t) {tokens used rest : List Token} {left : Parsed α tokens}
    (hw : lexemes used = w) (hrest : left.rest = used ++ rest) (hvalue : left.value = l)
    (hok : Ok (used ++ rest)) (hstops : Stops (Onward Ext Join) (lexemes rest)) :
    ∃ h, continueChain operand join left = .ok ⟨t, rest, h⟩ := by
  -- The derivation and not the run is followed: it says how many operands there are.
  induction h generalizing used left with
  | done t =>
      obtain rfl := List.map_eq_nil_iff.mp hw
      obtain ⟨value, leftRest, hshorter⟩ := left
      obtain rfl : leftRest = rest := hrest
      obtain rfl : value = t := hvalue
      refine ⟨hshorter, ?_⟩
      apply continueChain_eq_ok_self
      intro token tail htail
      obtain rfl : leftRest = token :: tail := htail
      exact table.eq_none hstops
  | @next x f v w l r t hjoin hv hrepeated ih =>
      obtain ⟨token, tail, rfl, rfl, htail⟩ := List.map_eq_cons_iff.mp hw
      obtain ⟨used₁, used₂, rfl, rfl, hused₂⟩ := List.map_eq_append_iff.mp htail
      have htoken : Balanced (lexemes [token]) :=
        balanced_singleton (table.operators _ _ hjoin).isPlain
      have hoperands : Ok (used₁ ++ (used₂ ++ rest)) := by
        refine hinherited [token] _ htoken ?_
        simpa using hok
      have hchain : Stops Ext (lexemes (used₂ ++ rest)) := by
        have hrest := hrepeated.stops table.fresh hstops
        rw [← hused₂] at hrest
        simpa [lexemes] using hrest
      obtain ⟨hshorter, hright⟩ := hoperand.complete hv hoperands hchain
      have hsplit : left.rest = token :: (used₁ ++ (used₂ ++ rest)) := by
        simpa using hrest
      obtain ⟨hnext, heq⟩ := continueChain_eq_of_operand hsplit ((table.iff _ _).mpr hjoin) hright
      rw [heq]
      refine ih hused₂ rfl ?_ (hinherited used₁ _ (hbalanced _ _ hv) hoperands)
      rw [hvalue]

theorem continueChain_steady (hoperand : Reads operand L Ext Ok)
    (table : JoinTable join Join Ext) (hinherited : Inherited Ok)
    (hbalanced : BalancedWords L) {tokens : List Token} {left : Parsed α tokens}
    {stop : Stop} (hok : Ok left.rest) (h : continueChain operand join left = .error stop) :
    stop.IsUnexpected := by
  have hnext : ∀ {token : Token} {rest : List Token} {f : α → α → α},
      join token.lexeme = some f → Ok (token :: rest) → Ok rest := by
    intro token rest f hjoin hok
    have hoperator := table.operators _ _ ((table.iff _ _).mp hjoin)
    exact hinherited [token] rest (balanced_singleton hoperator.isPlain) hok
  fun_induction continueChain operand join left with
  | case1 left hrest => cases h
  | case2 left token rest hrest hjoin => cases h
  | case3 left token rest hrest f hjoin stop' hstop =>
      cases h
      rw [hrest] at hok
      exact hoperand.steady (hnext hjoin hok) hstop
  | case4 left token rest hrest f hjoin right hright ih =>
      rw [hrest] at hok
      obtain ⟨used, hsplit, hword, -⟩ := hoperand.sound hright
      have hrest := hnext hjoin hok
      rw [hsplit] at hrest
      exact ih (hinherited used _ (hbalanced _ _ hword) hrest) h

/-- A chain of operands reads a chain of their language. -/
theorem Reads.chainLeft (hoperand : Reads operand L Ext Ok)
    (table : JoinTable join Join Ext) (hinherited : Inherited Ok)
    (hbalanced : BalancedWords L) :
    Reads (chainLeft operand join) (Chain L Join) (Onward Ext Join) Ok := by
  refine ⟨?_, ?_, ?_⟩
  · intro tokens r h
    exact hoperand.takes.chainLeft table _ _ h
  · intro used rest t hword hok hstops
    obtain ⟨v, w, l, hvw, hv, hrepeated⟩ := hword.first
    obtain ⟨used₁, used₂, rfl, rfl, rfl⟩ := List.map_eq_append_iff.mp hvw
    rw [List.append_assoc] at hok ⊢
    -- The first operand ends where an operator of the chain or the end of the chain is.
    have hchain : Stops Ext (lexemes (used₂ ++ rest)) := by
      have hrest := hrepeated.stops table.fresh hstops
      rw [lexemes_append]
      exact hrest
    obtain ⟨hshorter, hfirst⟩ := hoperand.complete hv hok hchain
    rw [Parser.chainLeft, hfirst]
    exact continueChain_complete hoperand table hinherited hbalanced hrepeated rfl rfl rfl
      (hinherited used₁ _ (hbalanced _ _ hv) hok) hstops
  · intro tokens stop hok h
    rw [Parser.chainLeft] at h
    split at h
    · next stop' hstop =>
        cases h
        exact hoperand.steady hok hstop
    · next first hfirst =>
        obtain ⟨used, hsplit, hword, -⟩ := hoperand.sound hfirst
        rw [hsplit] at hok
        exact continueChain_steady hoperand table hinherited hbalanced
          (hinherited used _ (hbalanced _ _ hword) hok) h

/-- What an optional operator before an operand needs of its table: the table is
that of the grammar, and it holds operators only. -/
structure PrefixTable (apply : Lexeme → Option (α → α)) (Apply : Prefixes α) : Prop where
  iff : ∀ x f, apply x = some f ↔ Apply x f
  operators : OperatorsOnly Apply

variable {apply : Lexeme → Option (α → α)} {Apply : Prefixes α}

theorem PrefixTable.eq_none {x : Lexeme} (table : PrefixTable apply Apply)
    (h : ∀ f, ¬ Apply x f) : apply x = none := by
  cases happly : apply x with
  | none => rfl
  | some f => exact absurd ((table.iff x f).mp happly) (h f)

theorem Takes.prefixed (hoperand : Takes operand L) (table : PrefixTable apply Apply) :
    Takes (prefixed operand apply) (Prefixed L Apply) := by
  intro tokens r h
  cases tokens with
  | nil =>
      obtain ⟨used, hsplit, hword, hread⟩ := hoperand _ _ h
      exact ⟨used, hsplit, .bare hword, hread⟩
  | cons token tail =>
      simp only [Parser.prefixed] at h
      split at h
      · obtain ⟨used, hsplit, hword, hread⟩ := hoperand _ _ h
        exact ⟨used, hsplit, .bare hword, hread⟩
      · next f happly =>
          split at h
          · cases h
          · next inner hinner =>
              cases h
              obtain ⟨used, hsplit, hword, hreadable⟩ := hoperand _ _ hinner
              have hgrammar := (table.iff _ _).mp happly
              refine ⟨token :: used, congrArg (token :: ·) hsplit, .applied hgrammar hword,
                ?_⟩
              exact (readable_cons_of_isOperator (table.operators _ _ hgrammar)).mpr hreadable

/-- An operand that may have an operator before it reads such operands of its
language. -/
theorem Reads.prefixed (hoperand : Reads operand L Ext Ok) (table : PrefixTable apply Apply)
    (hinherited : Inherited Ok) (hhead : HeadFree L Apply) :
    Reads (prefixed operand apply) (Prefixed L Apply) Ext Ok := by
  refine ⟨?_, ?_, ?_⟩
  · intro tokens r h
    exact hoperand.takes.prefixed table _ _ h
  · intro used rest t hword hok hstops
    generalize hw : lexemes used = w at hword
    cases hword with
    | bare hoperandWord =>
        obtain ⟨x, v, rfl, hx⟩ := hhead _ _ hoperandWord
        obtain ⟨token, tail, rfl, rfl, hv⟩ := List.map_eq_cons_iff.mp hw
        rw [← hw] at hoperandWord
        obtain ⟨hshorter, hread⟩ := hoperand.complete hoperandWord hok hstops
        refine ⟨hshorter, ?_⟩
        simp only [List.cons_append, Parser.prefixed, table.eq_none hx]
        exact hread
    | applied hgrammar hoperandWord =>
        obtain ⟨token, tail, rfl, rfl, hv⟩ := List.map_eq_cons_iff.mp hw
        have htoken : Balanced (lexemes [token]) :=
          balanced_singleton (table.operators _ _ hgrammar).isPlain
        rw [← hv] at hoperandWord
        obtain ⟨hshorter, hread⟩ :=
          hoperand.complete hoperandWord (hinherited [token] _ htoken hok) hstops
        refine ⟨Nat.lt_succ_of_lt hshorter, ?_⟩
        simp only [List.cons_append, Parser.prefixed, (table.iff _ _).mpr hgrammar, hread]
        rfl
  · intro tokens stop hok h
    cases tokens with
    | nil => exact hoperand.steady hok h
    | cons token tail =>
        simp only [Parser.prefixed] at h
        split at h
        · exact hoperand.steady hok h
        · next f happly =>
            have hgrammar := (table.iff _ _).mp happly
            have htoken : Balanced (lexemes [token]) :=
              balanced_singleton (table.operators _ _ hgrammar).isPlain
            split at h
            · next stop' hstop =>
                cases h
                exact hoperand.steady (hinherited [token] _ htoken hok) hstop
            · cases h

/-- The words of a language with a closing parenthesis after them. -/
def Closed (L : Phrases α) : Phrases α := fun w t => ∃ v, w = v ++ [.closing] ∧ L v t

/-- What follows an opening parenthesis up to the closing one makes up a group. -/
theorem Taken.group {S : Phrases α} {position : Nat} {rest rest' : List Token} {value : α}
    (h : Taken (Closed S) rest value rest')
    (hgroup : ∀ {w : List Lexeme} {t : α}, S w t → L (.opening :: (w ++ [.closing])) t) :
    Taken L (⟨.opening, position⟩ :: rest) value rest' := by
  obtain ⟨used, hsplit, ⟨w, hw, inside⟩, hreadable⟩ := h
  refine ⟨⟨.opening, position⟩ :: used, congrArg (_ :: ·) hsplit, ?_, ?_⟩
  · rw [lexemes_cons, hw]
    exact hgroup inside
  · rw [lexemes_cons]
    exact readable_append.mpr ⟨readable_singleton fun _ => Lexeme.noConfusion, hreadable⟩

theorem Takes.closed (hinside : Takes operand L) : Takes (closed operand) (Closed L) := by
  intro tokens r h
  rw [Parser.closed] at h
  split at h
  · cases h
  · next inner hinner =>
      obtain ⟨used, hsplit, hword, hreadable⟩ := hinside _ _ hinner
      split at h
      · next position rest hrest =>
          cases h
          refine ⟨used ++ [⟨.closing, position⟩], ?_, ?_, ?_⟩
          · rw [List.append_assoc]
            rw [hrest] at hsplit
            exact hsplit
          · exact ⟨lexemes used, List.map_append, hword⟩
          · rw [lexemes_append]
            refine readable_append.mpr ⟨hreadable, ?_⟩
            simp [Readable]
      · cases h

/-- What is read up to a closing parenthesis is a word with one after it. -/
theorem Reads.closed (hinside : Reads operand L Ext Ok) (hclosing : ¬ Ext .closing) :
    Reads (closed operand) (Closed L) Never Ok := by
  refine ⟨?_, ?_, ?_⟩
  · intro tokens r h
    exact hinside.takes.closed _ _ h
  · intro used rest t hword hok hstops
    obtain ⟨v, hw, hinsideWord⟩ := hword
    obtain ⟨used₁, last, rfl, rfl, hlast⟩ := List.map_eq_append_iff.mp hw
    obtain ⟨⟨_, position⟩, tail, rfl, rfl, htail⟩ := List.map_eq_cons_iff.mp hlast
    obtain rfl := List.map_eq_nil_iff.mp htail
    rw [List.append_assoc] at hok ⊢
    obtain ⟨hshorter, hread⟩ := hinside.complete hinsideWord hok (stops_cons.mpr hclosing)
    refine ⟨?_, ?_⟩
    · simp only [List.length_append, List.length_cons]
      omega
    · simp only [Parser.closed, hread]
      rfl
  · intro tokens stop hok h
    rw [Parser.closed] at h
    split at h
    · next stop' hstop =>
        cases h
        exact hinside.steady hok hstop
    · split at h
      · cases h
      · cases h
        exact ⟨_, _, rfl⟩

/-- A parser that gives up reads every language, where nothing is asked of it. -/
theorem reads_refuseNesting (L : Phrases α) (Ext : Lexeme → Prop) :
    Reads refuseNesting L Ext fun _ => False := by
  refine ⟨?_, fun _ hok => hok.elim, fun hok => hok.elim⟩
  intro tokens r h
  exact takes_refuseNesting L _ _ h

end Reading

end DateRules
