import DateRules.Parser.Grammar
import DateRules.Proofs.Parser.Reading

/-!
# The parsers of the two sorts read the grammar

`reads_intExpr` and `reads_boolExpr` say that the parsers read the integer and
the boolean sentences of the grammar, where `n` parentheses may be open at once.
Both go by induction on `n`.

A boolean operand that begins with a parenthesis is tried as a group first.
Where it is a comparison in truth, the group cannot have been read, since no
parenthesis opens both, and its parser has not given up either. So the comparison
is tried in turn.
-/

namespace DateRules

open Grammar DateRules.Parser

theorem sumJoin_table : JoinTable sumJoin SumJoin ProductOnward where
  iff := by
    intro x f
    constructor
    · intro h
      unfold sumJoin at h
      split at h <;> cases h <;> constructor
    · rintro ⟨⟩ <;> rfl
  operators := SumJoin.operatorsOnly
  fresh := fun _ _ h => h.not_productOnward

theorem productJoin_table : JoinTable productJoin ProductJoin Never where
  iff := by
    intro x f
    constructor
    · intro h
      unfold productJoin at h
      split at h <;> cases h <;> constructor
    · rintro ⟨⟩ <;> rfl
  operators := ProductJoin.operatorsOnly
  fresh := fun _ _ _ hnever => hnever

theorem signApply_table : PrefixTable signApply Sign where
  iff := by
    intro x f
    constructor
    · intro h
      unfold signApply at h
      split at h <;> cases h <;> constructor
    · rintro ⟨⟩ <;> rfl
  operators := Sign.operatorsOnly

theorem junctionJoin_table : JoinTable junctionJoin JunctionJoin IntOnward where
  iff := by
    intro x f
    constructor
    · intro h
      unfold junctionJoin at h
      split at h <;> cases h <;> constructor
    · rintro ⟨⟩ <;> rfl
  operators := JunctionJoin.operatorsOnly
  fresh := fun _ _ h => h.not_intOnward

theorem equivalenceJoin_table :
    JoinTable equivalenceJoin EquivalenceJoin JunctionOnward where
  iff := by
    intro x f
    constructor
    · intro h
      unfold equivalenceJoin at h
      split at h <;> cases h <;> constructor
    · rintro ⟨⟩ <;> rfl
  operators := EquivalenceJoin.operatorsOnly
  fresh := fun _ _ h => h.not_junctionOnward

theorem negationApply_table : PrefixTable negationApply Negation where
  iff := by
    intro x f
    constructor
    · intro h
      unfold negationApply at h
      split at h
      · cases h
        exact .not
      · cases h
    · rintro ⟨⟩
      rfl
  operators := Negation.operatorsOnly

theorem relationJoin_iff {x : Lexeme} {f : IntExpr → IntExpr → BoolExpr} :
    relationJoin x = some f ↔ Relation x f := by
  constructor
  · intro h
    unfold relationJoin at h
    split at h <;> cases h <;> constructor
  · rintro ⟨⟩ <;> rfl

section Integers

variable {Ok : List Token → Prop} {primary : Parser IntExpr}

theorem takes_intChain {L : Phrases IntExpr} (h : Takes primary L) :
    Takes (intChain primary) (IntChain L) := by
  have hproduct := (h.prefixed signApply_table).chainLeft productJoin_table
  exact hproduct.chainLeft sumJoin_table

theorem reads_intChain (hinherited : Inherited Ok) (h : Reads primary IntOperand Never Ok) :
    Reads (intChain primary) IntSentence IntOnward Ok := by
  have hwords : BalancedWords (Prefixed IntOperand Sign) :=
    BalancedWords.prefixed (fun _ _ => IntOperand.balanced) signApply_table.operators
  have hfactor := h.prefixed signApply_table hinherited fun _ _ => IntOperand.head
  have hproduct := hfactor.chainLeft productJoin_table hinherited hwords
  exact hproduct.chainLeft sumJoin_table hinherited (hwords.chain productJoin_table.operators)

/-- The operands of integer expressions are groups and single lexemes. -/
theorem takes_intOperand {group : Parser IntExpr} {S L : Phrases IntExpr}
    (htaken : Takes group (Closed S))
    (hgroup : ∀ {w : List Lexeme} {t : IntExpr}, S w t → L (.opening :: (w ++ [.closing])) t)
    (hsingle : ∀ {x : Lexeme} {t : IntExpr}, IsPlain x → IntOperand [x] t → L [x] t) :
    Takes (intOperand group) L := by
  intro tokens r h
  unfold intOperand at h
  split at h
  · next position rest =>
      split at h
      · cases h
      · next inner hinner =>
          cases h
          exact (htaken _ _ hinner).group hgroup
  · next digits position rest =>
      split at h
      · next hshort =>
          cases h
          refine taken_single (hsingle (isPlain_number digits) (.number digits)) ?_
          intro other hmem
          cases List.mem_singleton.mp hmem
          exact hshort
      · cases h
  · cases h
    exact taken_keyword (hsingle (isPlain_keyword _) (.quantity _))
  · cases h
    exact taken_keyword (hsingle (isPlain_keyword _) (.weekday _ _))
  · cases h

/-- The operands of integer expressions are read, if their groups are. -/
theorem reads_intOperand {Ok Inner : List Token → Prop} {group : Parser IntExpr}
    (hgroup : Reads group (Closed IntSentence) Never Inner)
    (hopening : ∀ position rest, Ok (⟨.opening, position⟩ :: rest) → Inner rest)
    (hreadable : ∀ tokens, Ok tokens → Readable (lexemes tokens)) :
    Reads (intOperand group) IntOperand Never Ok := by
  refine ⟨?_, ?_, ?_⟩
  · intro tokens r h
    exact takes_intOperand hgroup.takes .group (fun _ hword => hword) _ _ h
  · intro used rest t hword hok _
    generalize hw : lexemes used = w at hword
    obtain ⟨x, v, rfl, -⟩ := hword.head
    obtain ⟨⟨_, position⟩, tail, rfl, rfl, hv⟩ := List.map_eq_cons_iff.mp hw
    cases hword with
    | @group w _ inside =>
        have htail : Closed IntSentence (lexemes tail) t := ⟨w, hv, inside⟩
        obtain ⟨hshorter, hread⟩ :=
          hgroup.complete htail (hopening _ _ hok) fun _ _ hnever => hnever
        refine ⟨Nat.lt_succ_of_lt hshorter, ?_⟩
        simp only [List.cons_append, intOperand, hread]
        rfl
    | number digits =>
        obtain rfl := List.map_eq_nil_iff.mp hv
        refine ⟨Nat.lt_succ_self _, ?_⟩
        have hshort := hreadable _ hok digits List.mem_cons_self
        simp only [List.cons_append, List.nil_append, intOperand, if_pos hshort]
        rfl
    | quantity q =>
        obtain rfl := List.map_eq_nil_iff.mp hv
        exact ⟨Nat.lt_succ_self _, rfl⟩
    | weekday d short =>
        obtain rfl := List.map_eq_nil_iff.mp hv
        exact ⟨Nat.lt_succ_self _, rfl⟩
  · intro tokens stop hok h
    unfold intOperand at h
    split at h
    · next position rest =>
        split at h
        · next stop' hstop =>
            cases h
            exact hgroup.steady (hopening _ _ hok) hstop
        · cases h
    · next digits position rest =>
        split at h
        · cases h
        · next hlong => exact absurd (hreadable _ hok digits List.mem_cons_self) hlong
    · cases h
    · cases h
    · cases h
      exact ⟨_, _, rfl⟩

theorem reads_intPrimary (n : Nat) :
    Reads (intPrimary n) IntOperand Never (Admissible n) := by
  induction n with
  | zero =>
      exact reads_intOperand (reads_refuseNesting _ _)
        (fun _ _ hok => not_admissible_zero_opening hok) fun _ hok => hok.readable
  | succ n ih =>
      have hgroup := (reads_intChain (inherited_admissible n) ih).closed not_intOnward_closing
      exact reads_intOperand hgroup (fun _ _ hok => hok.of_opening) fun _ hok => hok.readable

/-- The parser of integer expressions reads the integer sentences. -/
theorem reads_intExpr (n : Nat) : Reads (intExpr n) IntSentence IntOnward (Admissible n) :=
  reads_intChain (inherited_admissible n) (reads_intPrimary n)

end Integers

section Booleans

variable {Ok : List Token → Prop}

theorem relation_eq_of_sides {side : Parser IntExpr} {tokens rest : List Token}
    {token : Token} {left : Parsed IntExpr tokens} {f : IntExpr → IntExpr → BoolExpr}
    {right : Parsed IntExpr rest} (hleft : side tokens = .ok left)
    (hrest : left.rest = token :: rest) (hjoin : relationJoin token.lexeme = some f)
    (hright : side rest = .ok right) :
    ∃ h, relation side tokens = .ok ⟨f left.value right.value, right.rest, h⟩ := by
  obtain ⟨value, _, hshorter⟩ := left
  subst hrest
  refine ⟨?_, ?_⟩
  · have hlength := right.rest_shorter
    rw [List.length_cons] at hshorter
    omega
  · simp only [relation, hleft, hjoin, hright]

theorem takes_relation {side : Parser IntExpr} {S : Phrases IntExpr} {L : Phrases BoolExpr}
    (hside : Takes side S)
    (hcompare : ∀ {x : Lexeme} {f : IntExpr → IntExpr → BoolExpr} {v w : List Lexeme}
      {l r : IntExpr}, S v l → Relation x f → S w r → L (v ++ x :: w) (f l r)) :
    Takes (relation side) L := by
  intro tokens r h
  unfold relation at h
  split at h
  · cases h
  · next left hleft =>
      obtain ⟨used₁, hsplit₁, hword₁, hreadable₁⟩ := hside _ _ hleft
      split at h
      · cases h
      · next token rest hrest =>
          split at h
          · cases h
          · next f hjoin =>
              split at h
              · cases h
              · next right hright =>
                  cases h
                  obtain ⟨used₂, hsplit₂, hword₂, hreadable₂⟩ := hside _ _ hright
                  have hrelation := relationJoin_iff.mp hjoin
                  refine ⟨used₁ ++ token :: used₂, ?_, ?_, ?_⟩
                  · rw [List.append_assoc, List.cons_append, ← hsplit₂, ← hrest]
                    exact hsplit₁
                  · rw [lexemes_append, lexemes_cons]
                    exact hcompare hword₁ hrelation hword₂
                  · rw [lexemes_append, lexemes_cons, readable_append,
                      readable_cons_of_isOperator (Relation.operatorsOnly _ _ hrelation)]
                    exact ⟨hreadable₁, hreadable₂⟩

/-- A comparison is read, if its sides are. -/
theorem reads_relation {side : Parser IntExpr} (hinherited : Inherited Ok)
    (hside : Reads side IntSentence IntOnward Ok) :
    Reads (relation side) Grammar.Comparison IntOnward Ok := by
  have hnext : ∀ {token : Token} {rest : List Token} {f : IntExpr → IntExpr → BoolExpr},
      Relation token.lexeme f → Ok (token :: rest) → Ok rest := by
    intro token rest f hrelation hok
    have hoperator := Relation.operatorsOnly _ _ hrelation
    exact hinherited [token] rest (balanced_singleton hoperator.isPlain) hok
  refine ⟨?_, ?_, ?_⟩
  · intro tokens r h
    exact takes_relation hside.takes .mk _ _ h
  · intro used rest t hword hok hstops
    generalize hw : lexemes used = w at hword
    obtain ⟨left, hrelation, right⟩ := hword
    obtain ⟨used₁, tail, rfl, rfl, htail⟩ := List.map_eq_append_iff.mp hw
    obtain ⟨token, used₂, rfl, rfl, rfl⟩ := List.map_eq_cons_iff.mp htail
    rw [List.append_assoc] at hok ⊢
    obtain ⟨_, hleft⟩ := hside.complete left hok (stops_cons.mpr hrelation.not_intOnward)
    have hrest := hnext hrelation (hinherited used₁ _ left.balanced hok)
    obtain ⟨_, hright⟩ := hside.complete right hrest hstops
    exact relation_eq_of_sides hleft rfl (relationJoin_iff.mpr hrelation) hright
  · intro tokens stop hok h
    unfold relation at h
    split at h
    · next stop' hstop =>
        cases h
        exact hside.steady hok hstop
    · next left hleft =>
        obtain ⟨used, hsplit, hword, -⟩ := hside.sound hleft
        rw [hsplit] at hok
        have hafter := hinherited used _ hword.balanced hok
        split at h
        · cases h
          exact ⟨_, _, rfl⟩
        · next token rest hrest =>
            split at h
            · cases h
              exact ⟨_, _, rfl⟩
            · next f hjoin =>
                split at h
                · next stop' hstop =>
                    cases h
                    rw [hrest] at hafter
                    exact hside.steady (hnext (relationJoin_iff.mp hjoin) hafter) hstop
                · cases h

theorem takes_boolChain {primary : Parser BoolExpr} {L : Phrases BoolExpr}
    (h : Takes primary L) : Takes (boolChain primary) (BoolChain L) := by
  have hjunction := (h.prefixed negationApply_table).chainLeft junctionJoin_table
  exact hjunction.chainLeft equivalenceJoin_table

theorem reads_boolChain {primary : Parser BoolExpr} (hinherited : Inherited Ok)
    (h : Reads primary BoolOperand IntOnward Ok) :
    Reads (boolChain primary) BoolSentence BoolOnward Ok := by
  have hwords : BalancedWords (Prefixed BoolOperand Negation) :=
    BalancedWords.prefixed (fun _ _ => BoolOperand.balanced) negationApply_table.operators
  have hterm := h.prefixed negationApply_table hinherited fun _ _ => BoolOperand.head
  have hjunction := hterm.chainLeft junctionJoin_table hinherited hwords
  exact hjunction.chainLeft equivalenceJoin_table hinherited
    (hwords.chain junctionJoin_table.operators)

/-- A comparison that begins with a parenthesis is read as one, since its group
is refused and nothing else can happen to it. -/
theorem boolOperand_eq_comparison {Inner : List Token → Prop}
    {group comparison : Parser BoolExpr} (hgroup : Reads group (Closed BoolSentence) Never Inner)
    (hopening : ∀ position rest, Ok (⟨.opening, position⟩ :: rest) → Inner rest)
    {used rest : List Token} {t : BoolExpr} (hword : Grammar.Comparison (lexemes used) t)
    (hok : Ok (used ++ rest)) :
    boolOperand group comparison (used ++ rest) = comparison (used ++ rest) := by
  obtain ⟨x, v, hhead, hx⟩ := hword.head
  generalize htokens : used ++ rest = tokens at hok ⊢
  have hlexemes : lexemes tokens = x :: (v ++ lexemes rest) := by
    rw [← htokens, lexemes_append, hhead, List.cons_append]
  unfold boolOperand
  split
  · next position rest' =>
      split
      · next inner hinner =>
          -- A group that is read would be a boolean sentence where the comparison has
          -- an integer one.
          obtain ⟨used', hsplit, ⟨w, hw, inside⟩, -⟩ := hgroup.sound hinner
          have hafter : lexemes rest' = w ++ .closing :: lexemes inner.rest := by
            have hlists := congrArg lexemes hsplit
            rw [lexemes_append, hw] at hlists
            simpa using hlists
          refine absurd ?_ (hword.append_ne_group (u := lexemes rest)
            (s := lexemes inner.rest) inside)
          rw [← lexemes_append, htokens, lexemes_cons, hafter]
      · rfl
      · next stop hnot hstop =>
          -- No other stop than an unexpected token can end the attempt.
          obtain ⟨wanted, next, rfl⟩ := hgroup.steady (hopening _ _ hok) hstop
          exact absurd rfl (hnot wanted next)
  · obtain ⟨rfl, -⟩ := List.cons.inj hlexemes
    exact absurd hx Bool.false_ne_true
  · obtain ⟨rfl, -⟩ := List.cons.inj hlexemes
    exact absurd hx Bool.false_ne_true
  · rfl

/-- The operands of boolean expressions are groups, single lexemes and comparisons. -/
theorem takes_boolOperand {group comparison : Parser BoolExpr} {S L : Phrases BoolExpr}
    (htaken : Takes group (Closed S)) (hcomparison : Takes comparison L)
    (hgroup : ∀ {w : List Lexeme} {t : BoolExpr}, S w t → L (.opening :: (w ++ [.closing])) t)
    (hsingle : ∀ {x : Lexeme} {t : BoolExpr}, IsPlain x → BoolOperand [x] t → L [x] t) :
    Takes (boolOperand group comparison) L := by
  intro tokens r h
  unfold boolOperand at h
  split at h
  · next position rest =>
      split at h
      · next inner hinner =>
          cases h
          exact (htaken _ _ hinner).group hgroup
      · exact hcomparison _ _ h
      · cases h
  · cases h
    exact taken_keyword (hsingle (isPlain_keyword _) (.truth _))
  · cases h
    exact taken_keyword (hsingle (isPlain_keyword _) (.statement _))
  · exact hcomparison _ _ h

/-- The operands of boolean expressions are read, if their groups and
comparisons are. -/
theorem reads_boolOperand {Inner : List Token → Prop} {group comparison : Parser BoolExpr}
    (hgroup : Reads group (Closed BoolSentence) Never Inner)
    (hcomparison : Reads comparison Grammar.Comparison IntOnward Ok)
    (hopening : ∀ position rest, Ok (⟨.opening, position⟩ :: rest) → Inner rest) :
    Reads (boolOperand group comparison) BoolOperand IntOnward Ok := by
  refine ⟨?_, ?_, ?_⟩
  · intro tokens r h
    exact takes_boolOperand hgroup.takes (hcomparison.takes.mono fun _ _ => .comparison) .group
      (fun _ hword => hword) _ _ h
  · intro used rest t hword hok hstops
    generalize hw : lexemes used = w at hword
    cases hword with
    | @group w _ inside =>
        obtain ⟨⟨_, position⟩, tail, rfl, rfl, hv⟩ := List.map_eq_cons_iff.mp hw
        have htail : Closed BoolSentence (lexemes tail) t := ⟨w, hv, inside⟩
        obtain ⟨hshorter, hread⟩ := hgroup.complete htail (hopening _ _ hok)
          fun _ _ hnever => hnever
        refine ⟨Nat.lt_succ_of_lt hshorter, ?_⟩
        simp only [List.cons_append, boolOperand, hread]
        rfl
    | truth value =>
        obtain ⟨⟨_, position⟩, tail, rfl, rfl, hv⟩ := List.map_eq_cons_iff.mp hw
        obtain rfl := List.map_eq_nil_iff.mp hv
        exact ⟨Nat.lt_succ_self _, rfl⟩
    | statement s =>
        obtain ⟨⟨_, position⟩, tail, rfl, rfl, hv⟩ := List.map_eq_cons_iff.mp hw
        obtain rfl := List.map_eq_nil_iff.mp hv
        exact ⟨Nat.lt_succ_self _, rfl⟩
    | comparison hcompared =>
        subst hw
        rw [boolOperand_eq_comparison hgroup hopening hcompared hok]
        exact hcomparison.complete hcompared hok hstops
  · intro tokens stop hok h
    unfold boolOperand at h
    split at h
    · next position rest =>
        split at h
        · cases h
        · exact hcomparison.steady hok h
        · next stop' hnot hstop =>
            cases h
            exact hgroup.steady (hopening _ _ hok) hstop
    · cases h
    · cases h
    · exact hcomparison.steady hok h

theorem reads_boolPrimary (n : Nat) :
    Reads (boolPrimary n) BoolOperand IntOnward (Admissible n) := by
  induction n with
  | zero =>
      exact reads_boolOperand (reads_refuseNesting _ _)
        (reads_relation (inherited_admissible 0) (reads_intExpr 0))
        fun _ _ hok => not_admissible_zero_opening hok
  | succ n ih =>
      have hgroup := (reads_boolChain (inherited_admissible n) ih).closed not_boolOnward_closing
      exact reads_boolOperand hgroup
        (reads_relation (inherited_admissible (n + 1)) (reads_intExpr (n + 1)))
        fun _ _ hok => hok.of_opening

/-- The parser of boolean expressions reads the boolean sentences. -/
theorem reads_boolExpr (n : Nat) :
    Reads (boolExpr n) BoolSentence BoolOnward (Admissible n) :=
  reads_boolChain (inherited_admissible n) (reads_boolPrimary n)

end Booleans

end DateRules
