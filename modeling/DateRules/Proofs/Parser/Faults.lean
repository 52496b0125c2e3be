import DateRules.Proofs.Parser.Stopping

/-!
# Where the parsers of the two sorts stop

`locates_intExpr` and `locates_boolExpr` say that the parsers of the two sorts stop at the
faults of a token list, as long as at most `n` parentheses are open at once.

An integer parser names the token at the fault. A boolean parser does not always: where a
group is refused it reads the same parenthesis again as one of an integer expression, and
names the token at which this reading fails. `BoolReport` says which token that is. What the
tokens before the fault leave open is read again, and the token is at the fault which the
rest of the list has from there on as an integer expression.
-/

namespace DateRules

open Grammar DateRules.Parser

section Groups

variable {α : Type} {S L : Phrases α} {u : List Lexeme} {next : Option Lexeme}

theorem Grammar.Viable.group (hgroup : ∀ {w : List Lexeme} {t : α}, S w t →
      L (.opening :: (w ++ [.closing])) t) (h : Viable (Closed S) u) :
    Viable L (.opening :: u) := by
  obtain ⟨v, t, w, hw, hword⟩ := h
  refine ⟨v, t, ?_⟩
  rw [List.cons_append, hw]
  exact hgroup hword

/-- Where a group is blocked before its end its parenthesis is open. -/
theorem Grammar.Fault.isSome_openAfter (hbalanced : BalancedWords S)
    (h : Fault (Closed S) Never u next) : (openAfter 0 u).isSome := by
  obtain ⟨⟨v, t, w, hw, hword⟩, hblocked⟩ := h
  have hopen : ∀ u v, u ++ v = w → (openAfter 0 u).isSome := by
    rintro u v rfl
    refine isSome_openAfter_left (v := v) ?_
    rw [hbalanced _ _ hword 0]
    rfl
  rcases List.append_eq_append_iff.mp hw with ⟨a, ha, -⟩ | ⟨a, rfl, ha⟩
  · exact hopen u a ha.symm
  · cases a with
    | nil => exact hopen _ [] (by rw [List.append_nil, List.append_nil])
    | cons x a =>
        obtain ⟨rfl, htail⟩ := List.cons.inj ha
        obtain ⟨rfl, rfl⟩ := List.append_eq_nil_iff.mp htail.symm
        -- The group was closed, so that it is a word itself.
        refine absurd ⟨next.toList, next.toList, t, ?_, rfl, fun _ _ hnever => hnever, w, rfl,
          hword⟩ (hblocked (w ++ [.closing]))
        cases next <;> rfl

end Groups

section Integers

variable {n : Nat} {Fits Inner : List Lexeme → Prop} {R : Report} {primary group : Parser IntExpr}
  {u o : List Lexeme} {next : Option Lexeme}

/-- An integer parser names the token at the fault, and what the tokens before it leave open
has its fault there as well. -/
structure IntReport (used rest : List Token) (next : Option Token) : Prop where
  next_eq : next = rest.head?
  opened : unclosed (lexemes used) = [] ∨
    Fault IntSentence IntOnward (unclosed (lexemes used)) (lexemes rest).head?

theorem intReport_of_balanced {used rest : List Token} (h : Balanced (lexemes used)) :
    IntReport used rest rest.head? :=
  ⟨rfl, .inl h.unclosed_eq_nil⟩

theorem carried_intReport : Carried IntReport := by
  rintro before used rest next hbalanced ⟨hnext, hopened⟩
  refine ⟨hnext, ?_⟩
  rw [lexemes_append, hbalanced.unclosed_append]
  exact hopened

theorem agree_intFactor : Agree (Prefixed IntOperand Sign) (Prefixed IntOperand Sign) Never :=
  IntOperand.agree.prefixed (fun _ _ => IntOperand.head) (fun _ _ => IntOperand.head)
    fun _ _ _ => Sign.unique

theorem agree_intTerm : Agree (Chain (Prefixed IntOperand Sign) ProductJoin)
    (Chain (Prefixed IntOperand Sign) ProductJoin) ProductOnward :=
  agree_intFactor.chain productJoin_table.unique productJoin_table.fresh

theorem locates_intChain (h : Locates primary IntOperand Never (Within n) R)
    (hshallow : Takes primary fun w _ => Shallow n w) (hcarried : Carried R) :
    Locates (intChain primary) IntSentence IntOnward (Within n) R := by
  have hfactor := h.prefixed signApply_table (fun _ _ => IntOperand.head) hcarried
  have hfactors := hshallow.shallow_prefixed signApply_table
  have hproduct := hfactor.chainLeft hfactors productJoin_table agree_intFactor hcarried
  exact hproduct.chainLeft (hfactors.shallow_chainLeft productJoin_table) sumJoin_table
    agree_intTerm hcarried

/-- Where an integer expression begins with an operand it has the faults of the operand. -/
theorem Grammar.Fault.intSentence (h : Fault IntOperand Never u next)
    (hfirst : ∀ x ∈ u.head?.or next, ∀ f, ¬ Sign x f) : Fault IntSentence IntOnward u next := by
  refine ⟨h.viable.mono fun _ _ hw => IntSentence.single (.bare hw), ?_⟩
  have hfactor : Blocked (Prefixed IntOperand Sign) Never u next :=
    h.blocked.of_possible fun o ho => ⟨o, ho.of_bare hfirst⟩
  have hproduct := Before.start.blocked agree_intFactor productJoin_table.unique
    productJoin_table.fresh hfactor
  exact Before.start.blocked agree_intTerm sumJoin_table.unique sumJoin_table.fresh hproduct

/-- A parenthesis is the first lexeme of no integer operand but a group. -/
theorem possible_intOperand_opening (h : Possible IntOperand Never (.opening :: u) next o) :
    ∃ o', Possible (Closed IntSentence) Never u next o' := by
  obtain ⟨m, s, t, hm, hsplit, hs, hword⟩ := h
  cases hword with
  | @group w _ inside =>
      rw [List.cons_append, List.cons_append] at hsplit
      obtain ⟨-, htail⟩ := List.cons.inj hsplit
      exact ⟨w ++ [.closing], m, s, t, hm, htail, hs, w, rfl, inside⟩
  | number _ => cases hsplit
  | quantity _ => cases hsplit
  | weekday _ _ => cases hsplit

theorem head?_lexemes_ne {tokens : List Token} {x : Lexeme}
    (h : ∀ position rest, tokens ≠ ⟨x, position⟩ :: rest) : (lexemes tokens).head? ≠ some x := by
  cases tokens with
  | nil => exact fun hx => nomatch hx
  | cons token rest =>
      intro hx
      obtain rfl := Option.some.inj hx
      exact h _ _ rfl

/-- Where no integer operand begins none is possible. -/
theorem blocked_intOperand (hopening : next ≠ some .opening)
    (hnumber : ∀ digits, next ≠ some (.number digits))
    (hquantity : ∀ q, next ≠ some (.keyword (.quantity q)))
    (hweekday : ∀ d short, next ≠ some (.keyword (.weekday d short))) :
    Blocked IntOperand Never [] next := by
  intro o ho
  have hhead : ∀ x v, o = x :: v → next = some x := by
    rintro x v rfl
    exact ho.mem_head
  obtain ⟨m, s, t, -, -, -, hword⟩ := ho
  cases hword with
  | group _ => exact hopening (hhead _ _ rfl)
  | number digits => exact hnumber _ (hhead _ _ rfl)
  | quantity q => exact hquantity _ (hhead _ _ rfl)
  | weekday d short => exact hweekday _ _ (hhead _ _ rfl)

theorem viable_intOperand_nil : Viable IntOperand [] :=
  ⟨[.number []], _, .number []⟩

/-- An operand that is a group stops as the group does. All of it is left open there. -/
theorem Halted.intOperand {rest : List Token} {stop : Stop} {position : Nat}
    (h : Halted (Closed IntSentence) Never Inner IntReport rest stop)
    (hopening : ∀ u, Fits (.opening :: u) ↔ Inner u) :
    Halted IntOperand Never Fits IntReport (⟨.opening, position⟩ :: rest) stop := by
  refine h.lift [⟨.opening, position⟩] (readable_singleton fun _ => Lexeme.noConfusion) hopening
    (fun _ => .group .group) ?_ ?_
  · intro used rest' _ hblocked
    exact hblocked.of_possible fun _ => possible_intOperand_opening
  · intro used rest' next hinner hfault hreport
    have hopen : unclosed (.opening :: lexemes used) = .opening :: lexemes used :=
      unclosed_opening (hinner.isSome_openAfter fun _ _ => IntSentence.balanced)
    refine ⟨hreport.next_eq, .inr ?_⟩
    change Fault IntSentence IntOnward (unclosed (.opening :: lexemes used)) _
    rw [hopen]
    refine hfault.intSentence ?_
    rintro _ ⟨⟩ f ⟨⟩

/-- The operands of integer expressions locate the faults of a list, if their groups do. -/
theorem locates_intOperand (h : Locates group (Closed IntSentence) Never Inner IntReport)
    (hnil : Fits []) (hopening : ∀ u, Fits (.opening :: u) ↔ Inner u) :
    Locates (intOperand group) IntOperand Never Fits IntReport := by
  have htakes : Takes (intOperand group) IntOperand :=
    takes_intOperand h.takes .group fun _ hword => hword
  refine ⟨htakes, fun hr => htakes.settled IntOperand.agree hr, ?_⟩
  intro tokens stop hstop
  unfold intOperand at hstop
  split at hstop
  · next position rest =>
      split at hstop
      · next stop' herror =>
          cases hstop
          exact (h.halted herror).intOperand hopening
      · cases hstop
  · next digits position rest =>
      split at hstop
      · cases hstop
      · next hlong =>
          cases hstop
          have hsplit : ⟨.number digits, position⟩ :: rest =
              [] ++ (⟨.number digits, position⟩ :: rest : List Token) := rfl
          exact .overlong hsplit readable_nil hnil (Nat.lt_of_not_le hlong)
            (viable_of_word (.number digits))
  · cases hstop
  · cases hstop
  · next hgroup hnumber hquantity hweekday =>
      cases hstop
      have hblocked : Blocked IntOperand Never [] (lexemes tokens).head? :=
        blocked_intOperand (head?_lexemes_ne hgroup)
          (fun digits => head?_lexemes_ne (hnumber digits))
          (fun q => head?_lexemes_ne (hquantity q))
          fun d short => head?_lexemes_ne (hweekday d short)
      exact .unexpected (List.nil_append tokens).symm readable_nil hnil
        ⟨viable_intOperand_nil, hblocked⟩ (intReport_of_balanced balanced_nil)

theorem locates_intPrimary (n : Nat) :
    Locates (intPrimary n) IntOperand Never (Within n) IntReport := by
  induction n with
  | zero =>
      have hnil := ((viable_of_word (IntSentence.single (.bare (.number [])))).shorten
        List.nil_prefix).closed
      exact locates_intOperand (locates_refuseNesting hnil) (Nat.zero_le 0)
        fun _ => iff_false_intro not_within_zero_opening
  | succ n ih =>
      have hinside := locates_intChain ih (takes_intPrimary_shallow n) carried_intReport
      have hgroup := hinside.closed (takes_intExpr_shallow n) not_intOnward_closing
        IntSentence.agree fun _ _ _ hword => intReport_of_balanced hword.balanced
      exact locates_intOperand hgroup (Nat.zero_le _) fun _ => within_opening

/-- The parser of integer expressions stops at the faults of a list. -/
theorem locates_intExpr (n : Nat) :
    Locates (intExpr n) IntSentence IntOnward (Within n) IntReport :=
  locates_intChain (locates_intPrimary n) (takes_intPrimary_shallow n) carried_intReport

end Integers

section Comparisons

variable {n : Nat} {side : Parser IntExpr} {u v o : List Lexeme}
  {next : Option Lexeme} {x : Lexeme} {f : IntExpr → IntExpr → BoolExpr} {a : IntExpr}

theorem Grammar.Viable.left (h : Viable IntSentence u) : Viable Grammar.Comparison u := by
  obtain ⟨v, t, hword⟩ := h
  have hnumber := IntSentence.single (.bare (.number []))
  have hcomparison := Comparison.mk hword .equal hnumber
  rw [List.append_assoc] at hcomparison
  exact ⟨_, _, hcomparison⟩

theorem Grammar.Viable.right (hleft : IntSentence v a) (hx : Relation x f)
    (h : Viable IntSentence u) : Viable Grammar.Comparison (v ++ x :: u) := by
  obtain ⟨w, t, hword⟩ := h
  refine ⟨w, f a t, ?_⟩
  rw [List.append_assoc]
  exact .mk hleft hx hword

/-- Where a comparison is possible its left side is, with a relation after it. -/
theorem Grammar.Possible.left (h : Possible Grammar.Comparison IntOnward u next o) :
    ∃ v m s x f, m.head? = next ∧ u ++ m = v ++ x :: s ∧ Relation x f ∧
      Possible IntSentence IntOnward u next v := by
  obtain ⟨m, s, t, hm, hsplit, hs, hword⟩ := h
  obtain @⟨x, f, v, w, l, r, left, relation, right⟩ := hword
  rw [List.append_assoc, List.cons_append] at hsplit
  exact ⟨v, m, w ++ s, x, f, hm, hsplit, relation, m, x :: (w ++ s), l, hm, hsplit,
    stops_cons.mpr relation.not_intOnward, left⟩

/-- After a left side and a relation the right side is possible. -/
theorem Grammar.Possible.right (hleft : IntSentence v a) (hx : Relation x f)
    (h : Possible Grammar.Comparison IntOnward (v ++ x :: u) next o) :
    ∃ w, o = v ++ x :: w ∧ Possible IntSentence IntOnward u next w := by
  obtain ⟨m, s, t, hm, hsplit, hs, hword⟩ := h
  obtain @⟨y, g, v', w, l, r, left, relation, right⟩ := hword
  have hparts : v ++ x :: (u ++ m) = v' ++ y :: (w ++ s) := by
    simpa using hsplit
  obtain ⟨rfl, -⟩ := IntSentence.agree.eq hleft left hparts (stops_cons.mpr hx.not_intOnward)
    (stops_cons.mpr relation.not_intOnward)
  obtain ⟨rfl, htail⟩ := List.cons.inj (List.append_cancel_left hparts)
  exact ⟨w, rfl, m, s, r, hm, htail, hs, right⟩

/-- A left side with no relation after it begins no comparison. -/
theorem Grammar.Settled.blocked_comparison (h : Settled IntSentence IntOnward u next)
    (hnext : ∀ x ∈ next, ∀ f, ¬ Relation x f) : Blocked Grammar.Comparison IntOnward u next := by
  intro o ho
  obtain ⟨v, m, s, x, f, rfl, hsplit, hx, hv⟩ := ho.left
  rw [h v hv] at hsplit
  rw [List.append_cancel_left hsplit] at hnext
  exact hnext x rfl f hx

theorem not_relation_of_eq_none (h : relationJoin x = none) : ¬ Relation x f := by
  intro hx
  rw [relationJoin_iff.mpr hx] at h
  cases h

/-- A comparison that was read has both sides read, the right one last. -/
theorem relation_eq_ok {tokens : List Token} {r : Parsed BoolExpr tokens}
    (h : relation side tokens = .ok r) :
    ∃ (left : Parsed IntExpr tokens) (token : Token) (rest : List Token)
      (f : IntExpr → IntExpr → BoolExpr) (right : Parsed IntExpr rest),
      side tokens = .ok left ∧ left.rest = token :: rest ∧ Relation token.lexeme f ∧
        side rest = .ok right ∧ right.rest = r.rest := by
  unfold relation at h
  split at h
  · cases h
  · next left hleft =>
      split at h
      · cases h
      · next token rest hrest =>
          split at h
          · cases h
          · next f hjoin =>
              split at h
              · cases h
              · next right hright =>
                  cases h
                  exact ⟨left, token, rest, f, right, hleft, hrest, relationJoin_iff.mp hjoin,
                    hright, rfl⟩

/-- A comparison stops in its left side, after it where no relation follows, or in its right
side. -/
theorem relation_eq_error {tokens : List Token} {stop : Stop}
    (h : relation side tokens = .error stop) :
    side tokens = .error stop ∨
    (∃ left : Parsed IntExpr tokens, side tokens = .ok left ∧
      stop = .unexpected .comparison left.rest.head? ∧
      ∀ x ∈ (lexemes left.rest).head?, ∀ f, ¬ Relation x f) ∨
    ∃ (left : Parsed IntExpr tokens) (token : Token) (rest : List Token)
      (f : IntExpr → IntExpr → BoolExpr), side tokens = .ok left ∧ left.rest = token :: rest ∧
        Relation token.lexeme f ∧ side rest = .error stop := by
  unfold relation at h
  split at h
  · next stop' herror =>
      cases h
      exact .inl herror
  · next left hleft =>
      split at h
      · next hrest =>
          cases h
          refine .inr (.inl ⟨left, hleft, by rw [hrest]; rfl, ?_⟩)
          rw [hrest]
          rintro x ⟨⟩
      · next token rest hrest =>
          split at h
          · next hnone =>
              cases h
              refine .inr (.inl ⟨left, hleft, by rw [hrest]; rfl, ?_⟩)
              rw [hrest]
              rintro _ ⟨⟩ f
              exact not_relation_of_eq_none hnone
          · next f hjoin =>
              split at h
              · next stop' herror =>
                  cases h
                  exact .inr (.inr ⟨left, token, rest, f, hleft, hrest,
                    relationJoin_iff.mp hjoin, herror⟩)
              · cases h

/-- A comparison locates the faults of a list, if its sides do. -/
theorem locates_relation (h : Locates side IntSentence IntOnward (Within n) IntReport)
    (hshallow : Takes side fun w _ => Shallow n w) :
    Locates (relation side) Grammar.Comparison IntOnward (Within n) IntReport := by
  refine ⟨takes_relation h.takes .mk, ?_, ?_⟩
  · intro tokens used r hr hsplit o ho
    obtain ⟨left, token, rest, f, right, hleft, hrest, hx, hright, hend⟩ := relation_eq_ok hr
    obtain ⟨used₁, hsplit₁, hword, -⟩ := h.takes _ _ hleft
    obtain ⟨used₂, hsplit₂, -, -⟩ := h.takes _ _ hright
    rw [hrest] at hsplit₁
    rw [← hend] at hsplit ho
    have hused := hsplit₁.symm.trans hsplit
    rw [append_cons_of_taken token hsplit₂] at hused
    obtain rfl := List.append_cancel_right hused
    rw [lexemes_append, lexemes_cons] at ho ⊢
    obtain ⟨w, rfl, hw⟩ := ho.right hword hx
    rw [h.settled hright hsplit₂ w hw]
  · intro tokens stop hstop
    rcases relation_eq_error hstop with
      herror | ⟨left, hleft, rfl, hnone⟩ | ⟨left, token, rest, f, hleft, hrest, hx, herror⟩
    · refine (h.halted herror).weaken (fun _ => .left) ?_ fun _ _ _ hreport => hreport
      intro used rest _ hblocked
      refine hblocked.of_possible fun o ho => ?_
      obtain ⟨v, -, -, -, -, -, -, -, hv⟩ := ho.left
      exact ⟨v, hv⟩
    · obtain ⟨used, hsplit, ⟨hword, hfits⟩, hreadable⟩ := h.takes.and hshallow _ _ hleft
      exact .unexpected hsplit hreadable hfits.peak ⟨(viable_of_word hword).left,
        (h.settled hleft hsplit).blocked_comparison hnone⟩ (intReport_of_balanced hword.balanced)
    · obtain ⟨used, hsplit, ⟨hword, hfits⟩, hreadable⟩ := h.takes.and hshallow _ _ hleft
      have hpassed : Passed n (used ++ [token]) := by
        have hleft : Passed n used := ⟨hfits, hreadable⟩
        exact hleft.append (passed_operator (Relation.operatorsOnly _ _ hx))
      rw [hsplit, hrest, ← List.singleton_append, ← List.append_assoc]
      refine (h.halted herror).lift (used ++ [token]) hpassed.readable hpassed.within_append ?_ ?_
        fun _ _ _ _ _ hreport => carried_intReport _ _ _ _ hpassed.shallow.balanced hreport
      · intro u hu
        rw [lexemes_append, List.append_assoc]
        exact .right hword hx hu
      · intro used' rest' _ hblocked
        refine hblocked.of_possible fun o ho => ?_
        rw [lexemes_append, lexemes_append, List.append_assoc] at ho
        obtain ⟨w, -, hw⟩ := ho.right hword hx
        exact ⟨w, hw⟩

end Comparisons

section Booleans

variable {n : Nat} {Fits Inner : List Lexeme → Prop} {R : Report}
  {primary group comparison : Parser BoolExpr}
  {u o : List Lexeme} {next : Option Lexeme} {t : BoolExpr}

/-- What the tokens before a fault leave open, `seen` and `missed`, was read a second time. The
token that a boolean parser names is the one at which it stopped then, which is at the fault of
the list from there on as an integer expression. -/
inductive BoolReport (used rest : List Token) (next : Option Token) : Prop
  | mk {before seen missed : List Token} (split : used = before ++ (seen ++ missed))
      (opened : unclosed (lexemes used) = lexemes (seen ++ missed))
      (next_eq : next = (missed ++ rest).head?)
      (reread : seen ++ missed = [] ∨
        Fault IntSentence IntOnward (lexemes seen) (lexemes (missed ++ rest)).head?)

theorem boolReport_of_balanced {used rest : List Token} (h : Balanced (lexemes used)) :
    BoolReport used rest rest.head? := by
  have hsplit : used = used ++ ([] ++ []) := (List.append_nil used).symm
  exact .mk hsplit h.unclosed_eq_nil rfl (.inl rfl)

theorem carried_boolReport : Carried BoolReport := by
  rintro first used rest next hbalanced @⟨before, seen, missed, split, opened, next_eq, reread⟩
  have hsplit : first ++ used = (first ++ before) ++ (seen ++ missed) := by
    rw [split, List.append_assoc]
  refine .mk hsplit ?_ next_eq reread
  rw [lexemes_append, hbalanced.unclosed_append]
  exact opened

/-- Where the token at the fault is named nothing was missed. -/
theorem IntReport.boolReport {used rest : List Token} {next : Option Token}
    (h : IntReport used rest next) : BoolReport used rest next := by
  obtain ⟨a, ha⟩ := unclosed_suffix (lexemes used)
  obtain ⟨before, seen, rfl, -, hseen⟩ := List.map_eq_append_iff.mp ha.symm
  have hsplit : before ++ seen = before ++ (seen ++ []) := by rw [List.append_nil]
  refine .mk hsplit ?_ h.next_eq ?_
  · rw [List.append_nil]
    exact hseen.symm
  · rw [List.append_nil]
    refine h.opened.imp (fun hnil => ?_) fun hfault => ?_
    · rw [← hseen] at hnil
      exact List.map_eq_nil_iff.mp hnil
    · rw [← hseen] at hfault
      exact hfault

theorem agree_boolTerm : Agree (Prefixed BoolOperand Negation) (Prefixed BoolOperand Negation)
    IntOnward :=
  BoolOperand.agree.prefixed (fun _ _ => BoolOperand.head) (fun _ _ => BoolOperand.head)
    fun _ _ _ => Negation.unique

theorem agree_boolJunction : Agree (Chain (Prefixed BoolOperand Negation) JunctionJoin)
    (Chain (Prefixed BoolOperand Negation) JunctionJoin) JunctionOnward :=
  agree_boolTerm.chain junctionJoin_table.unique junctionJoin_table.fresh

theorem locates_boolChain (h : Locates primary BoolOperand IntOnward (Within n) R)
    (hshallow : Takes primary fun w _ => Shallow n w) (hcarried : Carried R) :
    Locates (boolChain primary) BoolSentence BoolOnward (Within n) R := by
  have hterm := h.prefixed negationApply_table (fun _ _ => BoolOperand.head) hcarried
  have hterms := hshallow.shallow_prefixed negationApply_table
  have hjunction := hterm.chainLeft hterms junctionJoin_table agree_boolTerm hcarried
  exact hjunction.chainLeft (hterms.shallow_chainLeft junctionJoin_table) equivalenceJoin_table
    agree_boolJunction hcarried

/-- After a parenthesis the rest of a group is possible, or the list begins with a
comparison. -/
theorem possible_boolOperand_opening (h : Possible BoolOperand IntOnward (.opening :: u) next o) :
    (∃ o', o = .opening :: o' ∧ Possible (Closed BoolSentence) Never u next o') ∨
      Possible Grammar.Comparison IntOnward (.opening :: u) next o := by
  obtain ⟨m, s, t, hm, hsplit, hs, hword⟩ := h
  cases hword with
  | @group w _ inside =>
      rw [List.cons_append, List.cons_append] at hsplit
      obtain ⟨-, htail⟩ := List.cons.inj hsplit
      exact .inl ⟨w ++ [.closing], rfl, m, s, t, hm, htail, fun _ _ hnever => hnever, w, rfl,
        inside⟩
  | truth _ => cases hsplit
  | statement _ => cases hsplit
  | comparison hcomparison => exact .inr ⟨m, s, t, hm, hsplit, hs, hcomparison⟩

/-- Where neither a group nor a lexeme that is a boolean operand comes first only a comparison
is possible. -/
theorem possible_boolOperand_other (hopening : u.head?.or next ≠ some .opening)
    (htruth : ∀ value, u.head?.or next ≠ some (.keyword (.truth value)))
    (hstatement : ∀ s, u.head?.or next ≠ some (.keyword (.statement s)))
    (h : Possible BoolOperand IntOnward u next o) :
    Possible Grammar.Comparison IntOnward u next o := by
  have hhead : ∀ x v, o = x :: v → u.head?.or next = some x := by
    rintro x v rfl
    exact h.mem_head
  obtain ⟨m, s, t, hm, hsplit, hs, hword⟩ := h
  cases hword with
  | group _ => exact absurd (hhead _ _ rfl) hopening
  | truth value => exact absurd (hhead _ _ rfl) (htruth value)
  | statement q => exact absurd (hhead _ _ rfl) (hstatement q)
  | comparison hcomparison => exact ⟨m, s, t, hm, hsplit, hs, hcomparison⟩

/-- A comparison that is settled as one is settled as an operand. -/
theorem Grammar.Settled.boolOperand (h : Settled Grammar.Comparison IntOnward u next)
    (hword : Grammar.Comparison u t) : Settled BoolOperand IntOnward u next := by
  rintro o ⟨m, s, a, hm, hsplit, hs, ho⟩
  cases ho with
  | group inside =>
      rw [group_append] at hsplit
      exact absurd hsplit (hword.append_ne_group inside)
  | truth _ => exact absurd hsplit (hword.append_ne_cons rfl)
  | statement _ => exact absurd hsplit (hword.append_ne_cons rfl)
  | comparison hcomparison => exact h o ⟨m, s, a, hm, hsplit, hs, hcomparison⟩

/-- A lexeme that is a boolean operand by itself is settled. -/
theorem settled_boolOperand_single {x : Lexeme} (hopening : x ≠ .opening)
    (hx : isIntegral x = false) : Settled BoolOperand IntOnward [x] next := by
  rintro o ⟨m, s, a, hm, hsplit, hs, ho⟩
  cases ho with
  | group _ => exact absurd (List.cons.inj hsplit).1 hopening
  | truth _ => rw [(List.cons.inj hsplit).1]
  | statement _ => rw [(List.cons.inj hsplit).1]
  | comparison hcomparison => exact absurd hsplit.symm (hcomparison.append_ne_cons hx)

/-- A group is settled, since no comparison begins with it. -/
theorem settled_boolOperand_group {w : List Lexeme} (hword : BoolSentence w t) :
    Settled BoolOperand IntOnward (.opening :: (w ++ [.closing])) next := by
  intro o ho
  rcases possible_boolOperand_opening ho with ⟨o', rfl, ho'⟩ | ⟨m, s, a, -, hsplit, -, hcompared⟩
  · have hagree := BoolSentence.agree.closed not_boolOnward_closing
    have hclosed : Closed BoolSentence (w ++ [.closing]) t := ⟨w, rfl, hword⟩
    rw [hagree.settled hclosed (fun _ _ hnever => hnever) o' ho']
  · rw [group_append] at hsplit
    exact absurd hsplit.symm (hcompared.append_ne_group hword)

theorem viable_comparison_opening : Viable Grammar.Comparison [.opening] := by
  have hinside := IntSentence.single (.bare (.number []))
  have hword := IntSentence.single (.bare (.group hinside))
  exact ((viable_of_word hword).shorten ⟨_, rfl⟩).left

theorem blocked_boolOperand_opening (hgroup : Blocked (Closed BoolSentence) Never u next)
    (hcomparison : Blocked Grammar.Comparison IntOnward (.opening :: u) next) :
    Blocked BoolOperand IntOnward (.opening :: u) next := by
  intro o ho
  rcases possible_boolOperand_opening ho with ⟨o', -, ho'⟩ | ho'
  · exact hgroup o' ho'
  · exact hcomparison o ho'

/-- Where the group got at least as far as the comparison, all that stands before the fault is
left open, and what the comparison saw was read again. -/
theorem IntReport.boolReport_of_group {used missed group tail : List Token} {position : Nat}
    {next : Option Token} (h : IntReport used (missed ++ tail) next)
    (hfault : Fault Grammar.Comparison IntOnward (lexemes used) (lexemes (missed ++ tail)).head?)
    (hused : (⟨.opening, position⟩ : Token) :: group = used ++ missed)
    (hopen : (openAfter 0 (lexemes group)).isSome) :
    BoolReport (⟨.opening, position⟩ :: group) tail next := by
  have hall : unclosed (.opening :: lexemes group) = .opening :: lexemes group :=
    unclosed_opening hopen
  have hsplit : ⟨.opening, position⟩ :: group = [] ++ (used ++ missed) := hused
  refine .mk hsplit ?_ h.next_eq (.inr ?_)
  · rw [← hused]
    exact hall
  · cases used with
    | nil =>
        -- A comparison may begin with a parenthesis.
        rw [List.nil_append] at hused
        rw [← hused] at hfault
        exact absurd viable_comparison_opening hfault.blocked.not_viable
    | cons token used =>
        rw [List.cons_append] at hused
        obtain ⟨rfl, rfl⟩ := List.cons.inj hused
        rw [lexemes_append] at hopen
        have hseen : unclosed (.opening :: lexemes used) = .opening :: lexemes used :=
          unclosed_opening (isSome_openAfter_left hopen)
        have hopened := h.opened
        change unclosed (.opening :: lexemes used) = [] ∨
          Fault IntSentence IntOnward (unclosed (.opening :: lexemes used)) _ at hopened
        rw [hseen] at hopened
        exact hopened.resolve_left (List.cons_ne_nil _ _)

/-- Where a group and a comparison are both refused an operand has the later one of the two
faults. -/
theorem halted_choice {rest : List Token} {position : Nat} {wanted : Expectation}
    {named : Option Token} {stop : Stop}
    (hgroup : Halted (Closed BoolSentence) Never Inner BoolReport rest (.unexpected wanted named))
    (hopening : ∀ u, Fits (.opening :: u) ↔ Inner u)
    (hcomparison : Halted Grammar.Comparison IntOnward Fits IntReport
      (⟨.opening, position⟩ :: rest) stop) :
    Halted BoolOperand IntOnward Fits BoolReport (⟨.opening, position⟩ :: rest) stop := by
  cases hcomparison with
  | overlong split readable fits long viable =>
      exact .overlong split readable fits long (viable.mono fun _ _ => .comparison)
  | nestedTooDeeply split readable deep viable =>
      exact .nestedTooDeeply split readable deep (viable.mono fun _ _ => .comparison)
  | @unexpected used tail _ _ split readable fits fault report =>
      cases hgroup with
      | @unexpected used' tail' _ _ split' readable' fits' fault' _ =>
          have hlists : used ++ tail = (⟨.opening, position⟩ :: used') ++ tail' := by
            rw [← split, split', List.cons_append]
          rcases List.append_eq_append_iff.mp hlists with
            ⟨missed, hused, rfl⟩ | ⟨more, rfl, rfl⟩
          · have hcompare : Blocked Grammar.Comparison IntOnward (.opening :: lexemes used')
                (lexemes tail').head? := by
              have hblocked := fault.blocked
              rw [lexemes_append] at hblocked
              have hlater := hblocked.append
              rw [← lexemes_append, ← hused] at hlater
              exact hlater
            have hread : Readable (.opening :: lexemes used') :=
              readable_append.mpr ⟨readable_singleton fun _ => Lexeme.noConfusion, readable'⟩
            exact .unexpected (split.trans hlists) hread ((hopening _).mpr fits')
              ⟨fault'.viable.group .group, blocked_boolOperand_opening fault'.blocked hcompare⟩
              (report.boolReport_of_group fault hused
                (fault'.isSome_openAfter fun _ _ => BoolSentence.balanced))
          · refine .unexpected split readable fits
              ⟨fault.viable.mono fun _ _ => .comparison, ?_⟩ report.boolReport
            have hblocked := fault'.blocked
            rw [lexemes_append] at hblocked
            have hlater := hblocked.append
            have hcompare := fault.blocked
            rw [lexemes_append] at hcompare ⊢
            exact blocked_boolOperand_opening hlater hcompare

/-- Where a group stopped for another reason the operand did. -/
theorem Halted.of_group {rest : List Token} {position : Nat} {stop : Stop}
    (h : Halted (Closed BoolSentence) Never Inner BoolReport rest stop)
    (hnot : ∀ wanted named, stop ≠ .unexpected wanted named)
    (hopening : ∀ u, Fits (.opening :: u) ↔ Inner u) :
    Halted BoolOperand IntOnward Fits BoolReport (⟨.opening, position⟩ :: rest) stop := by
  have hread : ∀ w, Readable w → Readable (.opening :: w) := fun w hw =>
    readable_append.mpr ⟨readable_singleton fun _ => Lexeme.noConfusion, hw⟩
  cases h with
  | unexpected => exact absurd rfl (hnot _ _)
  | @overlong used rest' digits position' split readable fits long viable =>
      have hsplit : (⟨.opening, position⟩ : Token) :: rest =
          (⟨.opening, position⟩ :: used) ++ ⟨.number digits, position'⟩ :: rest' :=
        congrArg _ split
      exact .overlong hsplit (hread _ readable) ((hopening _).mpr fits) long
        (viable.group .group)
  | @nestedTooDeeply used rest' _ split readable deep viable =>
      have hsplit : (⟨.opening, position⟩ : Token) :: rest =
          (⟨.opening, position⟩ :: used) ++ rest' :=
        congrArg _ split
      exact .nestedTooDeeply hsplit (hread _ readable) (fun hfits => deep ((hopening _).mp hfits))
        (viable.group .group)

/-- What an operand was read from does not go on with the list. -/
theorem boolOperand_settled (h : Locates group (Closed BoolSentence) Never Inner BoolReport)
    (hcomparison : Locates comparison Grammar.Comparison IntOnward Fits IntReport)
    {tokens used : List Token} {r : Parsed BoolExpr tokens}
    (hr : boolOperand group comparison tokens = .ok r) (hsplit : tokens = used ++ r.rest) :
    Settled BoolOperand IntOnward (lexemes used) (lexemes r.rest).head? := by
  have hcompared : comparison tokens = .ok r →
      Settled BoolOperand IntOnward (lexemes used) (lexemes r.rest).head? := by
    intro hr
    obtain ⟨used', htaken, hword, -⟩ := hcomparison.takes _ _ hr
    obtain rfl := List.append_cancel_right (htaken.symm.trans hsplit)
    exact (hcomparison.settled hr htaken).boolOperand hword
  unfold boolOperand at hr
  split at hr
  · next position rest =>
      split at hr
      · next inner hinner =>
          cases hr
          obtain ⟨used', htaken, ⟨w, hw, hword⟩, -⟩ := h.takes _ _ hinner
          have hused : (⟨.opening, position⟩ :: used') ++ inner.rest = used ++ inner.rest := by
            rw [List.cons_append, ← htaken]
            exact hsplit
          obtain rfl := List.append_cancel_right hused
          rw [lexemes_cons, hw]
          exact settled_boolOperand_group hword
      · exact hcompared hr
      · cases hr
  · next value position rest =>
      cases hr
      obtain rfl : [_] = used := List.append_cancel_right hsplit
      exact settled_boolOperand_single Lexeme.noConfusion rfl
  · next s position rest =>
      cases hr
      obtain rfl : [_] = used := List.append_cancel_right hsplit
      exact settled_boolOperand_single Lexeme.noConfusion rfl
  · exact hcompared hr

/-- Where only a comparison may begin an operand stops as the comparison does. -/
theorem Halted.boolOperand {tokens : List Token} {stop : Stop}
    (h : Halted Grammar.Comparison IntOnward Fits IntReport tokens stop)
    (hgroup : ∀ position rest, tokens ≠ ⟨.opening, position⟩ :: rest)
    (htruth : ∀ value position rest, tokens ≠ ⟨.keyword (.truth value), position⟩ :: rest)
    (hstatement : ∀ q position rest, tokens ≠ ⟨.keyword (.statement q), position⟩ :: rest) :
    Halted BoolOperand IntOnward Fits BoolReport tokens stop := by
  refine h.weaken (fun _ hviable => hviable.mono fun _ _ => .comparison) ?_
    fun _ _ _ hreport => hreport.boolReport
  rintro used rest rfl hblocked
  have hfirst : ∀ x, (∀ position rest', used ++ rest ≠ ⟨x, position⟩ :: rest') →
      (lexemes used).head?.or (lexemes rest).head? ≠ some x := by
    intro x hx
    rw [← List.head?_append, ← lexemes_append]
    exact head?_lexemes_ne hx
  refine hblocked.of_possible fun o ho => ⟨o, ?_⟩
  exact possible_boolOperand_other (hfirst _ hgroup) (fun value => hfirst _ (htruth value))
    (fun q => hfirst _ (hstatement q)) ho

/-- The operands of boolean expressions locate the faults of a list, if their groups and
comparisons do. -/
theorem locates_boolOperand (h : Locates group (Closed BoolSentence) Never Inner BoolReport)
    (hcomparison : Locates comparison Grammar.Comparison IntOnward Fits IntReport)
    (hopening : ∀ u, Fits (.opening :: u) ↔ Inner u) :
    Locates (boolOperand group comparison) BoolOperand IntOnward Fits BoolReport := by
  refine ⟨takes_boolOperand h.takes (hcomparison.takes.mono fun _ _ => .comparison) .group
    fun _ hword => hword, fun hr hsplit => boolOperand_settled h hcomparison hr hsplit, ?_⟩
  intro tokens stop hstop
  unfold boolOperand at hstop
  split at hstop
  · next position rest =>
      split at hstop
      · cases hstop
      · next wanted named herror =>
          exact halted_choice (h.halted herror) hopening (hcomparison.halted hstop)
      · next stop' hnot herror =>
          cases hstop
          exact (h.halted herror).of_group (fun wanted named heq => hnot _ _ heq) hopening
  · cases hstop
  · cases hstop
  · next hgroup htruth hstatement =>
      exact (hcomparison.halted hstop).boolOperand hgroup htruth hstatement

theorem viable_boolGroup_nil : Viable (Closed BoolSentence) [] :=
  ((viable_of_word (BoolSentence.single (.bare (.truth true)))).shorten List.nil_prefix).closed

/-- What follows the parenthesis of a group locates the faults of a list, if the operands do. -/
theorem locates_boolGroup
    (h : Locates (boolPrimary n) BoolOperand IntOnward (Within n) BoolReport) :
    Locates (closed (boolExpr n)) (Closed BoolSentence) Never (Within n) BoolReport := by
  have hinside := locates_boolChain h (takes_boolPrimary_shallow n) carried_boolReport
  exact hinside.closed (takes_boolExpr_shallow n) not_boolOnward_closing BoolSentence.agree
    fun _ _ _ hword => boolReport_of_balanced hword.balanced

theorem locates_boolPrimary (n : Nat) :
    Locates (boolPrimary n) BoolOperand IntOnward (Within n) BoolReport := by
  induction n with
  | zero =>
      have hcomparison := locates_relation (locates_intExpr 0) (takes_intExpr_shallow 0)
      exact locates_boolOperand (locates_refuseNesting viable_boolGroup_nil) hcomparison
        fun _ => iff_false_intro not_within_zero_opening
  | succ n ih =>
      have hcomparison := locates_relation (locates_intExpr (n + 1)) (takes_intExpr_shallow (n + 1))
      exact locates_boolOperand (locates_boolGroup ih) hcomparison fun _ => within_opening

/-- The parser of boolean expressions stops at the faults of a list. -/
theorem locates_boolExpr (n : Nat) :
    Locates (boolExpr n) BoolSentence BoolOnward (Within n) BoolReport :=
  locates_boolChain (locates_boolPrimary n) (takes_boolPrimary_shallow n) carried_boolReport

end Booleans

end DateRules
