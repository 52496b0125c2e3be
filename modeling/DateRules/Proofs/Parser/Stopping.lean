import DateRules.Proofs.Grammar.Viable
import DateRules.Proofs.Parser.Acceptance

/-!
# Where parsers stop

`Locates p L Ext Fits R` says of a parser `p` for the language `L` what its result tells of the
tokens. A word that was taken is settled by the token after it. A parser that stopped has
`Halted`: the tokens before some place can be read and begin a word of the language, and they
are blocked by the token there, or this is a literal that is too long. The parser gives up only
where the tokens before the place, which begin a word as well, no longer have the property
`Fits`: that not too many of their parentheses are open at once.

The place need not be the one that the parser names. What it names is told by the relation
`R used rest next`, for a place between the tokens `used` and `rest`.

There is one lemma for each way to build a parser: `Locates.chainLeft`, `Locates.prefixed` and
`Locates.closed`. A chain ends as its last operand does (`chainLeft_eq_error`,
`chainLeft_eq_ok`), so that nothing else has to go by induction over the chain.
-/

namespace DateRules

open Grammar DateRules.Parser

/-- What the token that a parser names has to do with the place where it stopped. -/
abbrev Report := List Token → List Token → Option Token → Prop

/-- At most `n` parentheses are open at once. -/
def Within (n : Nat) (w : List Lexeme) : Prop := openPeak w ≤ n

theorem within_opening {n : Nat} {w : List Lexeme} :
    Within (n + 1) (.opening :: w) ↔ Within n w := by
  rw [Within, openPeak, if_pos rfl]
  exact Nat.succ_le_succ_iff

theorem not_within_zero_opening {w : List Lexeme} : ¬ Within 0 (.opening :: w) := by
  rw [Within, openPeak, if_pos rfl]
  exact Nat.not_succ_le_zero _

theorem Within.shorten {n : Nat} {u v : List Lexeme} (h : Within n (u ++ v)) : Within n u :=
  openPeak_le_iff.mpr fun x hx => openPeak_le_iff.mp h x (hx.trans (List.prefix_append u v))

theorem Within.of_prefix {n : Nat} {u v : List Lexeme} (h : Within n v) (hu : u <+: v) :
    Within n u := by
  obtain ⟨w, rfl⟩ := hu
  exact h.shorten

/-- Tokens that a parser can have read: they close all of their parentheses, at most `n` of
which are open at once, and none of their literals is too long. -/
structure Passed (n : Nat) (used : List Token) : Prop where
  shallow : Shallow n (lexemes used)
  readable : Readable (lexemes used)

theorem passed_nil (n : Nat) : Passed n [] := ⟨shallow_nil n, readable_nil⟩

theorem passed_operator {n : Nat} {token : Token} (h : IsOperator token.lexeme) :
    Passed n [token] :=
  ⟨shallow_singleton h.isPlain, (readable_cons_of_isOperator h).mpr readable_nil⟩

theorem Passed.append {n : Nat} {u v : List Token} (hu : Passed n u) (hv : Passed n v) :
    Passed n (u ++ v) := by
  refine ⟨?_, ?_⟩
  · rw [lexemes_append]
    exact hu.shallow.append hv.shallow
  · rw [lexemes_append]
    exact readable_append.mpr ⟨hu.readable, hv.readable⟩

/-- Tokens that a parser can have read do not count for those after them. -/
theorem Passed.within_append {n : Nat} {used : List Token} (h : Passed n used)
    (w : List Lexeme) : Within n (lexemes used ++ w) ↔ Within n w := by
  rw [Within, h.shallow.balanced.openPeak_append]
  exact Nat.max_le.trans (and_iff_right h.shallow.peak)

section Stopping

variable {α : Type}

/-- Where a parser stopped, and why. -/
inductive Halted (L : Phrases α) (Ext : Lexeme → Prop) (Fits : List Lexeme → Prop) (R : Report)
    (tokens : List Token) : Stop → Prop
  | unexpected {used rest : List Token} {wanted : Expectation} {next : Option Token}
      (split : tokens = used ++ rest) (readable : Readable (lexemes used))
      (fits : Fits (lexemes used)) (fault : Fault L Ext (lexemes used) (lexemes rest).head?)
      (report : R used rest next) : Halted L Ext Fits R tokens (.unexpected wanted next)
  | overlong {used rest : List Token} {digits : List Char} {position : Nat}
      (split : tokens = used ++ ⟨.number digits, position⟩ :: rest)
      (readable : Readable (lexemes used)) (fits : Fits (lexemes used))
      (long : maxDigits < digits.length) (viable : Viable L (lexemes used ++ [.number digits])) :
      Halted L Ext Fits R tokens (.overlong ⟨digits.length⟩)
  | nestedTooDeeply {used rest : List Token} {next : Option Token}
      (split : tokens = used ++ rest) (readable : Readable (lexemes used))
      (deep : ¬ Fits (lexemes used)) (viable : Viable L (lexemes used)) :
      Halted L Ext Fits R tokens (.nestedTooDeeply next)

/-- The results of a parser tell where the faults of a token list are. -/
structure Locates (p : Parser α) (L : Phrases α) (Ext : Lexeme → Prop)
    (Fits : List Lexeme → Prop) (R : Report) : Prop where
  takes : Takes p L
  settled : ∀ {tokens used : List Token} {r : Parsed α tokens}, p tokens = .ok r →
    tokens = used ++ r.rest → Settled L Ext (lexemes used) (lexemes r.rest).head?
  halted : ∀ {tokens : List Token} {stop : Stop}, p tokens = .error stop →
    Halted L Ext Fits R tokens stop

/-- The report is the same with a balanced word before the tokens. -/
def Carried (R : Report) : Prop :=
  ∀ before used rest next, Balanced (lexemes before) → R used rest next →
    R (before ++ used) rest next

variable {p operand : Parser α} {L : Phrases α} {Ext Ext' : Lexeme → Prop}
  {Fits Fits' : List Lexeme → Prop} {R R' : Report} {tokens : List Token} {stop : Stop} {n : Nat}

/-- What is said of a place goes over to the tokens with others before them. -/
theorem Halted.lift {β : Type} {M : Phrases β} (before : List Token)
    (h : Halted L Ext Fits R tokens stop) (hreadable : Readable (lexemes before))
    (hfits : ∀ u, Fits' (lexemes before ++ u) ↔ Fits u)
    (hviable : ∀ u, Viable L u → Viable M (lexemes before ++ u))
    (hblocked : ∀ used rest, tokens = used ++ rest →
      Blocked L Ext (lexemes used) (lexemes rest).head? →
        Blocked M Ext' (lexemes (before ++ used)) (lexemes rest).head?)
    (hreport : ∀ used rest next, Fault L Ext (lexemes used) (lexemes rest).head? →
      Fault M Ext' (lexemes (before ++ used)) (lexemes rest).head? → R used rest next →
        R' (before ++ used) rest next) :
    Halted M Ext' Fits' R' (before ++ tokens) stop := by
  have hread : ∀ used, Readable (lexemes used) → Readable (lexemes (before ++ used)) := by
    intro used hused
    rw [lexemes_append]
    exact readable_append.mpr ⟨hreadable, hused⟩
  cases h with
  | @unexpected used rest _ _ split readable fits fault report =>
      have hviable' : Viable M (lexemes (before ++ used)) := by
        rw [lexemes_append]
        exact hviable _ fault.viable
      have hfault : Fault M Ext' (lexemes (before ++ used)) (lexemes rest).head? :=
        ⟨hviable', hblocked _ _ split fault.blocked⟩
      refine .unexpected ?_ (hread _ readable) ?_ hfault (hreport _ _ _ fault hfault report)
      · rw [split, List.append_assoc]
      · rw [lexemes_append]
        exact (hfits _).mpr fits
  | @overlong used rest digits position split readable fits long viable =>
      have hsplit : before ++ tokens = (before ++ used) ++ ⟨.number digits, position⟩ :: rest := by
        rw [split, List.append_assoc]
      refine .overlong hsplit (hread _ readable) ?_ long ?_
      · rw [lexemes_append]
        exact (hfits _).mpr fits
      · rw [lexemes_append, List.append_assoc]
        exact hviable _ viable
  | @nestedTooDeeply used rest _ split readable deep viable =>
      have hsplit : before ++ tokens = (before ++ used) ++ rest := by
        rw [split, List.append_assoc]
      refine .nestedTooDeeply hsplit (hread _ readable) ?_ ?_
      · rw [lexemes_append]
        exact fun hfits' => deep ((hfits _).mp hfits')
      · rw [lexemes_append]
        exact hviable _ viable

/-- The same place in the same tokens, as another language sees it. -/
theorem Halted.weaken {β : Type} {M : Phrases β} (h : Halted L Ext Fits R tokens stop)
    (hviable : ∀ u, Viable L u → Viable M u)
    (hblocked : ∀ used rest, tokens = used ++ rest →
      Blocked L Ext (lexemes used) (lexemes rest).head? →
        Blocked M Ext' (lexemes used) (lexemes rest).head?)
    (hreport : ∀ used rest next, R used rest next → R' used rest next) :
    Halted M Ext' Fits R' tokens stop :=
  h.lift [] readable_nil (fun _ => Iff.rfl) hviable hblocked fun _ _ _ _ _ => hreport _ _ _

/-- A parser does not give up where few parentheses are open at once. -/
theorem Locates.ne_nestedTooDeeply (h : Locates p L Ext (Within n) R)
    (hfits : Within n (lexemes tokens)) (next : Option Token) :
    p tokens ≠ .error (.nestedTooDeeply next) := by
  intro hstop
  cases h.halted hstop with
  | nestedTooDeeply split _ deep _ =>
      rw [split, lexemes_append] at hfits
      exact deep hfits.shorten

/-- What was taken after a token was taken from that token on. -/
theorem append_cons_of_taken {before used rest rest' : List Token} (token : Token)
    (h : rest = used ++ rest') : before ++ token :: rest = (before ++ token :: used) ++ rest' := by
  rw [h, List.append_assoc, List.cons_append]

section Chains

variable {join : Lexeme → Option (α → α → α)} {Join : Joins α}

theorem JoinTable.unique (table : JoinTable join Join Ext) (x : Lexeme) (f g : α → α → α)
    (hf : Join x f) (hg : Join x g) : f = g :=
  Option.some.inj (((table.iff x f).mpr hf).symm.trans ((table.iff x g).mpr hg))

theorem Takes.and {M : Phrases α} (hL : Takes p L) (hM : Takes p M) :
    Takes p fun w t => L w t ∧ M w t := by
  intro tokens r h
  obtain ⟨used, hsplit, hword, hreadable⟩ := hL _ _ h
  obtain ⟨used', hsplit', hword', -⟩ := hM _ _ h
  obtain rfl := List.append_cancel_right (hsplit.symm.trans hsplit')
  exact ⟨used, hsplit, ⟨hword, hword'⟩, hreadable⟩

theorem continueChain_eq_error (htakes : Takes operand fun w t => L w t ∧ Shallow n w)
    (table : JoinTable join Join Ext) {left : Parsed α tokens} {used : List Token}
    (hleft : Chain L Join (lexemes used) left.value) (hused : Passed n used)
    (h : continueChain operand join left = .error stop) :
    ∃ before rest, used ++ left.rest = before ++ rest ∧ Before L Join (lexemes before) ∧
      Passed n before ∧ operand rest = .error stop := by
  fun_induction continueChain operand join left generalizing used with
  | case1 => cases h
  | case2 => cases h
  | case3 left token rest hrest f hjoin stop' hstop =>
      cases h
      have hgrammar := (table.iff _ _).mp hjoin
      refine ⟨used ++ [token], rest, ?_, ?_,
        hused.append (passed_operator (table.operators _ _ hgrammar)), hstop⟩
      · rw [hrest, List.append_assoc]
        rfl
      · rw [lexemes_append]
        exact .operator hleft hgrammar
  | case4 left token rest hrest f hjoin right hright ih =>
      have hgrammar := (table.iff _ _).mp hjoin
      obtain ⟨used', hsplit, ⟨hword, hshallow⟩, hread⟩ := htakes _ _ hright
      have hchain : Chain L Join (lexemes (used ++ token :: used')) (f left.value right.value) := by
        rw [lexemes_append]
        exact hleft.append hgrammar hword
      have hpassed : Passed n (used ++ token :: used') :=
        hused.append ((passed_operator (table.operators _ _ hgrammar)).append ⟨hshallow, hread⟩)
      obtain ⟨before, rest', heq, hbefore⟩ := ih hchain hpassed h
      refine ⟨before, rest', ?_, hbefore⟩
      rw [hrest]
      exact (append_cons_of_taken token hsplit).trans heq

/-- Where a chain stops its last operand does. -/
theorem chainLeft_eq_error (htakes : Takes operand fun w t => L w t ∧ Shallow n w)
    (table : JoinTable join Join Ext) (h : chainLeft operand join tokens = .error stop) :
    ∃ before rest, tokens = before ++ rest ∧ Before L Join (lexemes before) ∧
      Passed n before ∧ operand rest = .error stop := by
  rw [Parser.chainLeft] at h
  split at h
  · next stop' hstop =>
      cases h
      exact ⟨[], tokens, rfl, .start, passed_nil n, hstop⟩
  · next first hfirst =>
      obtain ⟨used, hsplit, ⟨hword, hshallow⟩, hread⟩ := htakes _ _ hfirst
      obtain ⟨before, rest, heq, hbefore⟩ :=
        continueChain_eq_error htakes table (.single hword) ⟨hshallow, hread⟩ h
      exact ⟨before, rest, hsplit.trans heq, hbefore⟩

/-- The last operand that was read of a chain ends where `rest` begins. -/
def LastOperand (operand : Parser α) (L : Phrases α) (Join : Joins α)
    (tokens rest : List Token) : Prop :=
  ∃ before tail, ∃ last : Parsed α tail, tokens = before ++ tail ∧
    Before L Join (lexemes before) ∧ operand tail = .ok last ∧ last.rest = rest

theorem continueChain_rest {left r : Parsed α tokens}
    (h : continueChain operand join left = .ok r) :
    ∀ token ∈ r.rest.head?, join token.lexeme = none := by
  fun_induction continueChain operand join left with
  | case1 left hrest =>
      cases h
      rw [hrest]
      rintro token ⟨⟩
  | case2 left token rest hrest hjoin =>
      cases h
      rw [hrest]
      rintro _ ⟨⟩
      exact hjoin
  | case3 => cases h
  | case4 left token rest hrest f hjoin right hright ih => exact ih h

/-- No operator of a chain comes after it. -/
theorem chainLeft_rest {r : Parsed α tokens} (h : chainLeft operand join tokens = .ok r) :
    ∀ token ∈ r.rest.head?, join token.lexeme = none := by
  rw [Parser.chainLeft] at h
  split at h
  · cases h
  · exact continueChain_rest h

theorem continueChain_eq_ok (htakes : Takes operand L) (table : JoinTable join Join Ext)
    {left r : Parsed α tokens} {used : List Token}
    (hleft : Chain L Join (lexemes used) left.value)
    (hlast : LastOperand operand L Join (used ++ left.rest) left.rest)
    (h : continueChain operand join left = .ok r) :
    LastOperand operand L Join (used ++ left.rest) r.rest := by
  fun_induction continueChain operand join left generalizing used with
  | case1 =>
      cases h
      exact hlast
  | case2 =>
      cases h
      exact hlast
  | case3 => cases h
  | case4 left token rest hrest f hjoin right hright ih =>
      have hgrammar := (table.iff _ _).mp hjoin
      obtain ⟨used', hsplit, hword, -⟩ := htakes _ _ hright
      have heq : used ++ left.rest = (used ++ token :: used') ++ right.rest := by
        rw [hrest]
        exact append_cons_of_taken token hsplit
      rw [heq]
      refine ih ?_ ?_ h
      · rw [lexemes_append]
        exact hleft.append hgrammar hword
      · refine ⟨used ++ [token], rest, right, ?_, ?_, hright, rfl⟩
        · rw [← append_cons_of_taken token hsplit, List.append_assoc]
          rfl
        · rw [lexemes_append]
          exact .operator hleft hgrammar

/-- Where a chain ends its last operand does, and no operator of the chain comes next. -/
theorem chainLeft_eq_ok (htakes : Takes operand L) (table : JoinTable join Join Ext)
    {r : Parsed α tokens} (h : chainLeft operand join tokens = .ok r) :
    LastOperand operand L Join tokens r.rest ∧
      ∀ x ∈ (lexemes r.rest).head?, ∀ f, ¬ Join x f := by
  refine ⟨?_, ?_⟩
  · rw [Parser.chainLeft] at h
    split at h
    · cases h
    · next first hfirst =>
        obtain ⟨used, hsplit, hword, -⟩ := htakes _ _ hfirst
        have hlast : LastOperand operand L Join (used ++ first.rest) first.rest := by
          rw [← hsplit]
          exact ⟨[], tokens, first, rfl, .start, hfirst, rfl⟩
        have hchain := continueChain_eq_ok htakes table (.single hword) hlast h
        rwa [← hsplit] at hchain
  · intro x hx f hf
    rw [lexemes, List.head?_map] at hx
    obtain ⟨token, htoken, rfl⟩ := Option.map_eq_some_iff.mp hx
    have hjoin := chainLeft_rest h token htoken
    rw [(table.iff _ _).mpr hf] at hjoin
    cases hjoin

theorem Takes.shallow_chainLeft (h : Takes operand fun w _ => Shallow n w)
    (table : JoinTable join Join Ext) :
    Takes (Parser.chainLeft operand join) fun w _ => Shallow n w :=
  (h.chainLeft table).mono fun _ _ hw => hw.word (shallow_nil n) .append
    (fun hx => shallow_singleton (table.operators _ _ hx).isPlain) fun hv => hv

/-- A chain locates the faults of a list, if its operands do. -/
theorem Locates.chainLeft (h : Locates operand L Ext (Within n) R)
    (hshallow : Takes operand fun w _ => Shallow n w) (table : JoinTable join Join Ext)
    (hagree : Agree L L Ext) (hcarried : Carried R) :
    Locates (chainLeft operand join) (Chain L Join) (Onward Ext Join) (Within n) R := by
  refine ⟨h.takes.chainLeft table, ?_, ?_⟩
  · intro tokens used r hr hsplit
    obtain ⟨⟨before, tail, last, rfl, hbefore, hlast, hrest⟩, hnext⟩ :=
      chainLeft_eq_ok h.takes table hr
    obtain ⟨used', htail, -, -⟩ := h.takes _ _ hlast
    have hused : (before ++ used') ++ last.rest = used ++ last.rest := by
      rw [List.append_assoc, ← htail, hrest]
      exact hsplit
    obtain rfl := List.append_cancel_right hused
    rw [← hrest] at hnext ⊢
    rw [lexemes_append]
    exact hbefore.settled hagree table.unique table.fresh (h.settled hlast htail) hnext
  · intro tokens stop hstop
    obtain ⟨before, rest, rfl, hbefore, hpassed, herror⟩ :=
      chainLeft_eq_error (h.takes.and hshallow) table hstop
    refine (h.halted herror).lift before hpassed.readable hpassed.within_append
      (fun _ => hbefore.viable) ?_
      fun _ _ _ _ _ hreport => hcarried _ _ _ _ hpassed.shallow.balanced hreport
    intro used rest _ hblocked
    rw [lexemes_append]
    exact hbefore.blocked hagree table.unique table.fresh hblocked

end Chains

section Operators

variable {apply : Lexeme → Option (α → α)} {Apply : Prefixes α}

/-- None of the operators that may precede an operand comes first. -/
def Unprefixed (Apply : Prefixes α) (tokens : List Token) : Prop :=
  ∀ x ∈ (lexemes tokens).head?, ∀ f, ¬ Apply x f

theorem PrefixTable.unprefixed_nil : Unprefixed Apply [] := by
  rintro x ⟨⟩

theorem PrefixTable.unprefixed_cons (table : PrefixTable apply Apply) {token : Token}
    {rest : List Token} (h : apply token.lexeme = none) : Unprefixed Apply (token :: rest) := by
  rintro x ⟨⟩ f hf
  rw [(table.iff _ _).mpr hf] at h
  cases h

theorem Unprefixed.possible {used rest : List Token} {o : List Lexeme}
    (hfirst : Unprefixed Apply (used ++ rest))
    (h : Possible (Prefixed L Apply) Ext (lexemes used) (lexemes rest).head? o) :
    Possible L Ext (lexemes used) (lexemes rest).head? o := by
  rw [Unprefixed, lexemes_append, List.head?_append] at hfirst
  exact h.of_bare hfirst

/-- Where an operand with an operator before it stops the operand does. -/
theorem prefixed_eq_error (table : PrefixTable apply Apply)
    (h : prefixed operand apply tokens = .error stop) :
    (Unprefixed Apply tokens ∧ operand tokens = .error stop) ∨
      ∃ token rest f, tokens = token :: rest ∧ Apply token.lexeme f ∧
        operand rest = .error stop := by
  cases tokens with
  | nil => exact .inl ⟨PrefixTable.unprefixed_nil, h⟩
  | cons token rest =>
      simp only [Parser.prefixed] at h
      split at h
      · next happly => exact .inl ⟨table.unprefixed_cons happly, h⟩
      · next f happly =>
          split at h
          · next stop' hstop =>
              cases h
              exact .inr ⟨token, rest, f, rfl, (table.iff _ _).mp happly, hstop⟩
          · cases h

/-- Where an operand with an operator before it ends the operand does. -/
theorem prefixed_eq_ok (table : PrefixTable apply Apply) {r : Parsed α tokens}
    (h : prefixed operand apply tokens = .ok r) :
    (Unprefixed Apply tokens ∧ operand tokens = .ok r) ∨
      ∃ token rest f, ∃ inner : Parsed α rest, tokens = token :: rest ∧ Apply token.lexeme f ∧
        operand rest = .ok inner ∧ inner.rest = r.rest := by
  cases tokens with
  | nil => exact .inl ⟨PrefixTable.unprefixed_nil, h⟩
  | cons token rest =>
      simp only [Parser.prefixed] at h
      split at h
      · next happly => exact .inl ⟨table.unprefixed_cons happly, h⟩
      · next f happly =>
          split at h
          · cases h
          · next inner hinner =>
              cases h
              exact .inr ⟨token, rest, f, inner, rfl, (table.iff _ _).mp happly, hinner, rfl⟩

theorem Takes.shallow_prefixed (h : Takes operand fun w _ => Shallow n w)
    (table : PrefixTable apply Apply) :
    Takes (Parser.prefixed operand apply) fun w _ => Shallow n w :=
  (h.prefixed table).mono fun _ _ hw => hw.word .append
    (fun hx => shallow_singleton (table.operators _ _ hx).isPlain) fun hv => hv

/-- An operand that may have an operator before it locates the faults of a list, if the
operand does. -/
theorem Locates.prefixed (h : Locates operand L Ext (Within n) R)
    (table : PrefixTable apply Apply) (hhead : HeadFree L Apply) (hcarried : Carried R) :
    Locates (prefixed operand apply) (Prefixed L Apply) Ext (Within n) R := by
  refine ⟨h.takes.prefixed table, ?_, ?_⟩
  · intro tokens used r hr hsplit o ho
    rcases prefixed_eq_ok table hr with
      ⟨hfirst, hread⟩ | ⟨token, rest, f, inner, rfl, hf, hread, hrest⟩
    · rw [hsplit] at hfirst
      exact h.settled hread hsplit o (hfirst.possible ho)
    · obtain ⟨used', htaken, -, -⟩ := h.takes _ _ hread
      have hused : (token :: used') ++ inner.rest = used ++ inner.rest := by
        rw [List.cons_append, ← htaken, hrest]
        exact hsplit
      obtain rfl := List.append_cancel_right hused
      obtain ⟨o', rfl, ho'⟩ := ho.of_applied hhead hf
      rw [← hrest] at ho'
      rw [h.settled hread htaken o' ho']
      rfl
  · intro tokens stop hstop
    rcases prefixed_eq_error table hstop with
      ⟨hfirst, herror⟩ | ⟨token, rest, f, rfl, hf, herror⟩
    · refine (h.halted herror).weaken (fun _ => .bare) ?_ fun _ _ _ hreport => hreport
      rintro used rest rfl hblocked
      exact hblocked.of_possible fun o ho => ⟨o, hfirst.possible ho⟩
    · have hpassed : Passed n [token] := passed_operator (table.operators _ _ hf)
      refine (h.halted herror).lift [token] hpassed.readable hpassed.within_append
        (fun _ => .applied hf) ?_
        fun _ _ _ _ _ hreport => hcarried _ _ _ _ hpassed.shallow.balanced hreport
      intro used rest' _ hblocked
      refine hblocked.of_possible fun o ho => ?_
      obtain ⟨o', -, ho'⟩ := ho.of_applied hhead hf
      exact ⟨o', ho'⟩

end Operators

section Groups

theorem Grammar.Viable.closed {u : List Lexeme} (h : Viable L u) : Viable (Closed L) u := by
  obtain ⟨v, t, hword⟩ := h
  exact ⟨v ++ [.closing], t, u ++ v, (List.append_assoc _ _ _).symm, hword⟩

/-- Where a closing parenthesis is to come what stands before it is possible. -/
theorem Grammar.Possible.of_closed (hclosing : ¬ Ext .closing) {u o : List Lexeme}
    {next : Option Lexeme} (h : Possible (Closed L) Never u next o) :
    ∃ v m s, m.head? = next ∧ u ++ m = v ++ .closing :: s ∧ Possible L Ext u next v := by
  obtain ⟨m, s, t, hm, hsplit, -, v, rfl, hword⟩ := h
  rw [List.append_assoc] at hsplit
  exact ⟨v, m, s, hm, hsplit, m, .closing :: s, t, hm, hsplit, stops_cons.mpr hclosing, hword⟩

theorem Grammar.Agree.closed (hagree : Agree L L Ext) (hclosing : ¬ Ext .closing) :
    Agree (Closed L) (Closed L) Never := by
  refine ⟨?_⟩
  rintro _ _ s t a b ⟨u, rfl, hu⟩ ⟨v, rfl, hv⟩ h - -
  rw [List.append_assoc, List.append_assoc] at h
  obtain ⟨rfl, rfl⟩ := hagree.eq hu hv h (stops_cons.mpr hclosing) (stops_cons.mpr hclosing)
  exact ⟨rfl, rfl⟩

/-- What a parser takes is settled, if nothing goes on with the words of its language. -/
theorem Takes.settled (htakes : Takes p L) (hagree : Agree L L Never) {used : List Token}
    {r : Parsed α tokens} (h : p tokens = .ok r) (hsplit : tokens = used ++ r.rest) :
    Settled L Never (lexemes used) (lexemes r.rest).head? := by
  obtain ⟨used', htaken, hword, -⟩ := htakes _ _ h
  obtain rfl := List.append_cancel_right (htaken.symm.trans hsplit)
  exact hagree.settled hword fun _ _ hnever => hnever

/-- The report names the next token at the end of a word. -/
def NamesNext (L : Phrases α) (R : Report) : Prop :=
  ∀ used rest t, L (lexemes used) t → R used rest rest.head?

/-- What is read up to a closing parenthesis locates the faults of a list, if what stands in
the parentheses does. -/
theorem Locates.closed (h : Locates operand L Ext (Within n) R)
    (hshallow : Takes operand fun w _ => Shallow n w) (hclosing : ¬ Ext .closing)
    (hagree : Agree L L Ext) (hnext : NamesNext L R) :
    Locates (closed operand) (Closed L) Never (Within n) R := by
  refine ⟨h.takes.closed, fun hr => h.takes.closed.settled (hagree.closed hclosing) hr, ?_⟩
  intro tokens stop hstop
  rw [Parser.closed] at hstop
  split at hstop
  · next stop' herror =>
      cases hstop
      refine (h.halted herror).weaken (fun _ => .closed) ?_ fun _ _ _ hreport => hreport
      intro used rest _ hblocked
      refine hblocked.of_possible fun o ho => ?_
      obtain ⟨v, -, -, -, -, hv⟩ := ho.of_closed hclosing
      exact ⟨v, hv⟩
  · next inner hinner =>
      obtain ⟨used, htaken, ⟨hword, hfits⟩, hreadable⟩ := h.takes.and hshallow _ _ hinner
      split at hstop
      · cases hstop
      · next hnone =>
          cases hstop
          refine .unexpected htaken hreadable hfits.peak ⟨(viable_of_word hword).closed, ?_⟩
            (hnext _ _ _ hword)
          -- Nothing but the word itself could be closed, and it is not.
          intro o ho
          obtain ⟨v, m, s, hm, hsplit, hv⟩ := ho.of_closed hclosing
          rw [h.settled hinner htaken v hv] at hsplit
          rw [List.append_cancel_left hsplit] at hm
          generalize inner.rest = rest at hnone hm
          cases rest with
          | nil => cases hm
          | cons token rest =>
              obtain ⟨lexeme, position⟩ := token
              obtain rfl := Option.some.inj hm
              exact hnone _ _ rfl

theorem locates_refuseNesting (hnil : Viable L []) :
    Locates refuseNesting L Ext (fun _ => False) R := by
  refine ⟨takes_refuseNesting L, ?_, ?_⟩
  · intro tokens used r h
    cases h
  · intro tokens stop h
    cases h
    exact .nestedTooDeeply (List.nil_append tokens).symm readable_nil (fun hfalse => hfalse) hnil

end Groups

end Stopping

end DateRules
