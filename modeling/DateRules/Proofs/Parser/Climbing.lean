import DateRules.Proofs.Parser.Choice
import DateRules.Proofs.Parser.Progress

/-!
# The cursor reads what the parsers read

`Mirrors tokens i m parsed` says that a course comes from the place `i` to the result that a parser
has for the tokens from there on: the same tree and the same tokens left, or the same stop. The
parsers count the parentheses that may still be opened and the cursor does not, so nothing is
said where a parser gives up. `Copies` says it of every place, with one lemma for each routine,
and the induction is on the number of parentheses (`copies_intPrimary`, `copies_boolPrimary`).

The loop that takes a least rank is compared with two chains in each other. It reads the operators
of the higher rank first, as the inner chain does, and where none of them comes next the
operators of the lower rank with an inner chain after each of them (`Copies.tight_rounds`,
`Copies.loose_rounds`).

`cursor_safe` puts this together with the progress of the cursor.
-/

namespace DateRules

open Grammar DateRules.Parser

namespace Parser

section Mirrors

variable {α β : Type} {tokens rest base base' : List Token} {token : Token} {i : Nat}

/-- What is left of the tokens from a place on. -/
structure Remains (tokens : List Token) (i : Nat) (rest : List Token) : Prop where
  le_length : i ≤ tokens.length
  drop_eq : tokens.drop i = rest

theorem Remains.getElem?_eq (h : Remains tokens i rest) : tokens[i]? = rest.head? := by
  rw [← h.drop_eq, List.head?_drop]

theorem Remains.next (h : Remains tokens i (token :: rest)) : Remains tokens (i + 1) rest := by
  have hlt : i < tokens.length := lt_of_getElem? h.getElem?_eq
  refine ⟨hlt, ?_⟩
  rw [← List.tail_drop, h.drop_eq]
  rfl

/-- The end of a run shows the result of a parser. -/
inductive Shows (tokens : List Token) :
    ParseResult α base → Except Abort α → Cursor → Prop
  | stopped {stop : Stop} {c : Cursor} : Shows tokens (.error stop) (.error (.stopped stop)) c
  | read {r : Parsed α base} {c : Cursor} (rest : Remains tokens c.position r.rest) :
      Shows tokens (.ok r) (.ok r.value) c

/-- From a place on a course comes to the result of a parser, if this does not give up. -/
def Mirrors (tokens : List Token) (i : Nat) (m : Course α) (parsed : ParseResult α base) : Prop :=
  (∀ next, parsed ≠ .error (.nestedTooDeeply next)) → ∀ trail, ∃ result c,
    m ⟨i, trail⟩ = some (result, c) ∧ Shows tokens parsed result c

/-- A course does for every place what a parser does for the tokens that are left there. -/
def Copies (tokens : List Token) (m : Course α) (p : Parser α) : Prop :=
  ∀ i rest, Remains tokens i rest → Mirrors tokens i m (p rest)

variable {m : Course α} {f : α → Course β}

theorem mirrors_pure {r : Parsed α base} (h : Remains tokens i r.rest) :
    Mirrors tokens i (pure r.value) (.ok r) :=
  fun _ trail => ⟨.ok r.value, ⟨i, trail⟩, rfl, .read h⟩

theorem mirrors_halt (stop : Stop) :
    Mirrors tokens i (halt stop : Course α) (.error stop : ParseResult α base) :=
  fun _ trail => ⟨.error (.stopped stop), ⟨i, trail⟩, rfl, .stopped⟩

theorem mirrors_halt_bind (stop : Stop) :
    Mirrors tokens i (halt stop >>= f) (.error stop : ParseResult β base) :=
  fun _ trail => ⟨.error (.stopped stop), ⟨i, trail⟩, rfl, .stopped⟩

/-- Where a parser gives up nothing is said. -/
theorem mirrors_nestedTooDeeply (next : Option Token) :
    Mirrors tokens i m (.error (.nestedTooDeeply next) : ParseResult α base) :=
  fun hsettled => absurd rfl (hsettled next)

theorem Mirrors.of_ok {r : Parsed α base} (h : Mirrors tokens i m (.ok r)) (trail : List Nat) :
    ∃ c, m ⟨i, trail⟩ = some (.ok r.value, c) ∧ Remains tokens c.position r.rest := by
  obtain ⟨result, c, hrun, hshows⟩ := h (by simp) trail
  cases hshows with
  | read hrest => exact ⟨c, hrun, hrest⟩

theorem Mirrors.of_error {stop : Stop}
    (h : Mirrors tokens i m (.error stop : ParseResult α base))
    (hsettled : ∀ next, stop ≠ .nestedTooDeeply next) (trail : List Nat) :
    ∃ c, m ⟨i, trail⟩ = some (.error (.stopped stop), c) := by
  obtain ⟨result, c, hrun, hshows⟩ :=
    h (fun next hdeep => hsettled next (Except.error.inj hdeep)) trail
  cases hshows
  exact ⟨c, hrun⟩

theorem Mirrors.bind_error {stop : Stop}
    (hm : Mirrors tokens i m (.error stop : ParseResult α base)) :
    Mirrors tokens i (m >>= f) (.error stop : ParseResult β base') := by
  intro hsettled trail
  obtain ⟨c, hrun⟩ := hm.of_error (fun next h => hsettled next (congrArg Except.error h)) trail
  exact ⟨_, c, bind_of_error hrun, .stopped⟩

theorem Mirrors.bind_ok {r : Parsed α base} {whole : ParseResult β base'}
    (hm : Mirrors tokens i m (.ok r))
    (hf : ∀ j, Remains tokens j r.rest → Mirrors tokens j (f r.value) whole) :
    Mirrors tokens i (m >>= f) whole := by
  intro hsettled trail
  obtain ⟨c, hrun, hrest⟩ := hm.of_ok trail
  obtain ⟨result, c', hrun', hshows⟩ := hf _ hrest hsettled c.trail
  exact ⟨result, c', (bind_of_ok hrun).trans hrun', hshows⟩

/-- A course goes on with the value that was read. -/
theorem Mirrors.bind {first : ParseResult α base} {g : Parsed α base → ParseResult β base'}
    (hm : Mirrors tokens i m first)
    (hf : ∀ r j, Remains tokens j r.rest → Mirrors tokens j (f r.value) (g r)) :
    Mirrors tokens i (m >>= f) (first.bind g) := by
  cases first with
  | error stop => exact hm.bind_error
  | ok r => exact hm.bind_ok fun j hj => hf r j hj

/-- It does not matter from which token on a value was read. -/
theorem Mirrors.after {parsed : ParseResult α base} (h : Mirrors tokens i m parsed)
    (token : Token) : Mirrors tokens i m (parsed.map (Parsed.after token)) := by
  have hbind := h.bind (f := pure) (g := fun r => .ok (r.after token))
    fun r j hj => mirrors_pure (r := r.after token) hj
  rw [bind_pure] at hbind
  cases parsed <;> exact hbind

/-- What is run again from the place where it began is read again there. -/
theorem Mirrors.orReread {m' : Course α} {first second : ParseResult α base}
    (hm : Mirrors tokens i m first) (hm' : Mirrors tokens i m' second) :
    Mirrors tokens i (orReread m m') (firstOf first second) := by
  intro hsettled trail
  cases first with
  | ok r =>
      obtain ⟨c, hrun, hrest⟩ := hm.of_ok trail
      exact ⟨_, c, orReread_of_settled hrun (by simp), .read hrest⟩
  | error stop =>
      cases stop with
      | unexpected wanted next =>
          obtain ⟨c, hrun⟩ := hm.of_error (by simp) trail
          obtain ⟨result, c', hrun', hshows⟩ := hm' hsettled (i :: c.trail)
          exact ⟨result, c', (orReread_of_refused hrun).trans hrun', hshows⟩
      | nestedTooDeeply next => exact absurd rfl (hsettled next)
      | overlong literal =>
          obtain ⟨c, hrun⟩ := hm.of_error (by simp) trail
          exact ⟨_, c, orReread_of_settled hrun (by simp), .stopped⟩

theorem mirrors_peek_bind {f : Option Token → Course β} {whole : ParseResult β base}
    (hrest : Remains tokens i rest) (h : Mirrors tokens i (f rest.head?) whole) :
    Mirrors tokens i (peek tokens >>= f) whole := by
  intro hsettled trail
  rw [peek_bind (c := ⟨i, trail⟩) hrest.le_length]
  rw [← hrest.getElem?_eq] at h
  exact h hsettled trail

theorem mirrors_advance_bind {f : Option Token → Course β} {whole : ParseResult β base}
    (hrest : Remains tokens i (token :: rest))
    (h : Mirrors tokens (i + 1) (f (some token)) whole) :
    Mirrors tokens i (advance tokens >>= f) whole := by
  intro hsettled trail
  rw [advance_bind (c := ⟨i, trail⟩) hrest.getElem?_eq]
  exact h hsettled ((i + 1) :: trail)

theorem mirrors_run {s : ExprSort} {r : Routine s} {parsed : ParseResult s.Tree base}
    (hrest : Remains tokens i rest) (h : Mirrors tokens i (step tokens (run tokens) r) parsed) :
    Mirrors tokens i (run tokens r) parsed := by
  intro hsettled trail
  obtain ⟨result, c, hrun, hshows⟩ := h hsettled trail
  exact ⟨result, c, (run_eq_step hrest.le_length r).trans hrun, hshows⟩

end Mirrors

section Chains

variable {tokens rest base : List Token} {token : Token} {i least : Nat} {s : ExprSort}
  {x : Lexeme} {f : s.Tree → s.Tree → s.Tree} {op : Infix s.Tree} {operand : Parser s.Tree}

theorem looseJoin_eq_none (h : s.tightJoin x = some f) : s.looseJoin x = none := by
  cases s with
  | int =>
      simp only [ExprSort.tightJoin, productJoin] at h
      split at h
      · rfl
      · rfl
      · rfl
      · cases h
  | bool =>
      simp only [ExprSort.tightJoin, junctionJoin] at h
      split at h
      · rfl
      · rfl
      · cases h

theorem infixOf_of_tight (h : s.tightJoin x = some f) : infixOf s x = some ⟨2, true, f⟩ := by
  rw [infixOf, looseJoin_eq_none h, h]
  rfl

theorem infixOf_of_loose (h : s.looseJoin x = some f) : infixOf s x = some ⟨1, true, f⟩ := by
  rw [infixOf, h]

theorem infixOf_eq_none (htight : s.tightJoin x = none) (hloose : s.looseJoin x = none) :
    infixOf s x = none := by
  rw [infixOf, hloose, htight]
  rfl

theorem rank_of_not_tight (h : s.tightJoin x = none) (hop : infixOf s x = some op) :
    op.rank = 1 := by
  rw [infixOf, h] at hop
  split at hop
  · cases hop
    rfl
  · cases hop

theorem rank_le_two (hop : infixOf s x = some op) : op.rank ≤ 2 := by
  cases htight : s.tightJoin x with
  | none => rw [rank_of_not_tight htight hop]; decide
  | some f =>
      rw [infixOf_of_tight htight] at hop
      cases hop
      exact Nat.le_refl 2

theorem except_bind_ok {ε α : Type} (x : Except ε α) : x.bind .ok = x := by
  cases x <;> rfl

theorem chainLeft_eq_bind {α : Type} (operand : Parser α) (join : Lexeme → Option (α → α → α))
    (tokens : List Token) :
    chainLeft operand join tokens = (operand tokens).bind (continueChain operand join) := by
  rw [chainLeft]
  cases operand tokens <;> rfl

/-- The loop ends where no operator of its ranks comes next. -/
theorem mirrors_rounds_end {left : Parsed s.Tree base} (hleft : Remains tokens i left.rest)
    (hend : ∀ token ∈ left.rest.head?, ∀ op, infixOf s token.lexeme = some op → op.rank < least) :
    Mirrors tokens i (run tokens (.rounds least left.value)) (.ok left) := by
  refine mirrors_run hleft (mirrors_peek_bind hleft ?_)
  split
  · exact mirrors_pure hleft
  · next op hop =>
      obtain ⟨token, htoken, hoperator⟩ := Option.bind_eq_some_iff.mp hop
      rw [if_pos (hend token htoken op hoperator)]
      exact mirrors_pure hleft

/-- The loop takes an operator of its ranks and the operand after it. -/
theorem mirrors_round {left : s.Tree} {whole : ParseResult s.Tree base}
    (hrest : Remains tokens i (token :: rest)) (hop : infixOf s token.lexeme = some op)
    (hrank : least ≤ op.rank)
    (hwhole : Mirrors tokens (i + 1) (do
      let right ← run tokens (.climb s op.leastOnRight)
      run tokens (.rounds least (op.build left right))) whole) :
    Mirrors tokens i (run tokens (.rounds least left)) whole := by
  refine mirrors_run hrest (mirrors_peek_bind hrest ?_)
  simp only [List.head?_cons, Option.bind_some, hop, if_neg (Nat.not_lt.mpr hrank)]
  exact mirrors_advance_bind hrest hwhole

/-- Where no operator is of the least rank only an operand is read. -/
theorem Copies.climb_three (h : Copies tokens (run tokens (.unary s)) operand) :
    Copies tokens (run tokens (.climb s 3)) operand := by
  intro i rest hrest
  have hclimb : Mirrors tokens i (run tokens (.climb s 3)) ((operand rest).bind .ok) := by
    refine mirrors_run hrest ((h i rest hrest).bind fun first j hj => mirrors_rounds_end hj ?_)
    exact fun _ _ op hop => Nat.lt_succ_of_le (rank_le_two hop)
  rwa [except_bind_ok] at hclimb

/-- The loop reads the operators of the higher rank first. -/
theorem Copies.tight_rounds (h : Copies tokens (run tokens (.unary s)) operand)
    (hleast : least ≤ 2) {g : Parsed s.Tree base → ParseResult s.Tree base}
    (hg : ∀ first j, Remains tokens j first.rest →
      (∀ token ∈ first.rest.head?, s.tightJoin token.lexeme = none) →
      Mirrors tokens j (run tokens (.rounds least first.value)) (g first))
    {left : Parsed s.Tree base} (hleft : Remains tokens i left.rest) :
    Mirrors tokens i (run tokens (.rounds least left.value))
      ((continueChain operand s.tightJoin left).bind g) := by
  fun_induction continueChain operand s.tightJoin left generalizing i with
  | case1 left hnil =>
      refine hg left i hleft ?_
      rw [hnil]
      rintro _ ⟨⟩
  | case2 left token rest hrest hjoin =>
      refine hg left i hleft ?_
      rw [hrest]
      rintro _ ⟨⟩
      exact hjoin
  | case3 left token rest hrest f hjoin stop hstop =>
      rw [hrest] at hleft
      have hoperand := h.climb_three (i + 1) rest hleft.next
      rw [hstop] at hoperand
      exact mirrors_round hleft (infixOf_of_tight hjoin) hleast hoperand.bind_error
  | case4 left token rest hrest f hjoin right hright ih =>
      rw [hrest] at hleft
      have hoperand := h.climb_three (i + 1) rest hleft.next
      rw [hright] at hoperand
      exact mirrors_round hleft (infixOf_of_tight hjoin) hleast (hoperand.bind_ok fun j hj => ih hj)

/-- With the higher rank as the least one a chain of its operators is read. -/
theorem Copies.climb_two (h : Copies tokens (run tokens (.unary s)) operand) :
    Copies tokens (run tokens (.climb s 2)) (chainLeft operand s.tightJoin) := by
  intro i rest hrest
  rw [chainLeft_eq_bind]
  refine mirrors_run hrest ((h i rest hrest).bind fun first j hj => ?_)
  have hrounds := h.tight_rounds (Nat.le_refl 2) (g := .ok)
    (fun left k hleft hnext => mirrors_rounds_end hleft fun token htoken op hop => ?_) hj
  · rwa [except_bind_ok] at hrounds
  · rw [rank_of_not_tight (hnext token htoken) hop]
    exact Nat.one_lt_two

/-- The loop then reads the operators of the lower rank, with chains of the higher rank between
them. -/
theorem Copies.loose_rounds (h : Copies tokens (run tokens (.unary s)) operand)
    (hleast : least ≤ 1) {left : Parsed s.Tree base} (hleft : Remains tokens i left.rest)
    (hnext : ∀ token ∈ left.rest.head?, s.tightJoin token.lexeme = none) :
    Mirrors tokens i (run tokens (.rounds least left.value))
      (continueChain (chainLeft operand s.tightJoin) s.looseJoin left) := by
  fun_induction continueChain (chainLeft operand s.tightJoin) s.looseJoin left
    generalizing i with
  | case1 left hnil =>
      refine mirrors_rounds_end hleft ?_
      rw [hnil]
      rintro _ ⟨⟩
  | case2 left token rest hrest hjoin =>
      refine mirrors_rounds_end hleft fun token' htoken op hop => ?_
      rw [hrest] at hnext htoken
      obtain rfl := Option.some.inj htoken
      rw [infixOf_eq_none (hnext _ rfl) hjoin] at hop
      cases hop
  | case3 left token rest hrest f hjoin stop hstop =>
      rw [hrest] at hleft
      have hchain := h.climb_two (i + 1) rest hleft.next
      rw [hstop] at hchain
      exact mirrors_round hleft (infixOf_of_loose hjoin) hleast hchain.bind_error
  | case4 left token rest hrest f hjoin right hright ih =>
      rw [hrest] at hleft
      have hchain := h.climb_two (i + 1) rest hleft.next
      rw [hright] at hchain
      have hafter := chainLeft_rest hright
      exact mirrors_round hleft (infixOf_of_loose hjoin) hleast
        (hchain.bind_ok fun j hj => ih hj hafter)

/-- The loop reads what the two chains in each other read. -/
theorem Copies.expression (h : Copies tokens (run tokens (.unary s)) operand) :
    Copies tokens (run tokens (.expression s))
      (chainLeft (chainLeft operand s.tightJoin) s.looseJoin) := by
  intro i rest hrest
  have hchains : chainLeft (chainLeft operand s.tightJoin) s.looseJoin rest =
      (operand rest).bind fun first => (continueChain operand s.tightJoin first).bind
        (continueChain (chainLeft operand s.tightJoin) s.looseJoin) := by
    rw [chainLeft_eq_bind, chainLeft_eq_bind]
    cases operand rest <;> rfl
  rw [hchains]
  refine mirrors_run hrest (mirrors_run hrest ((h i rest hrest).bind fun first j hj => ?_))
  refine h.tight_rounds (Nat.le_succ 1) ?_ hj
  exact fun left k hleft hnext => h.loose_rounds (Nat.le_refl 1) hleft hnext

end Chains

section Operands

variable {tokens rest : List Token} {i n : Nat} {s : ExprSort}

theorem Copies.unary {primary : Parser s.Tree}
    (h : Copies tokens (run tokens (.primary s)) primary) :
    Copies tokens (run tokens (.unary s)) (prefixed primary s.prefixApply) := by
  intro i rest hrest
  refine mirrors_run hrest (mirrors_peek_bind hrest ?_)
  cases rest with
  | nil => exact h i [] hrest
  | cons token rest =>
      cases happly : s.prefixApply token.lexeme with
      | none =>
          simp only [prefixed, happly, List.head?_cons, Option.bind_some]
          exact h i _ hrest
      | some f =>
          have hprefixed : prefixed primary s.prefixApply (token :: rest) =
              (primary rest).bind fun inner => .ok ((inner.map f).after token) := by
            simp only [prefixed, happly]
            cases primary rest <;> rfl
          simp only [hprefixed, happly, List.head?_cons, Option.bind_some]
          exact mirrors_advance_bind hrest ((h (i + 1) rest hrest.next).bind
            fun inner j hj => mirrors_pure (r := (inner.map f).after token) hj)

/-- A closing parenthesis is taken. -/
theorem mirrors_closing_bind {β : Type} {f : Option Token → Course β} {base : List Token}
    {whole : ParseResult β base} {position : Nat}
    (hrest : Remains tokens i (⟨.closing, position⟩ :: rest))
    (h : Mirrors tokens (i + 1) (f (some ⟨.closing, position⟩)) whole) :
    Mirrors tokens i (expectClosing tokens >>= f) whole := by
  rw [expectClosing, bind_assoc]
  exact mirrors_peek_bind hrest (mirrors_advance_bind hrest h)

/-- Nothing else is taken in its place. -/
theorem mirrors_unclosed_bind {β : Type} {f : Option Token → Course β} {base : List Token}
    (hrest : Remains tokens i rest)
    (hnone : ∀ position rest', rest = ⟨.closing, position⟩ :: rest' → False) :
    Mirrors tokens i (expectClosing tokens >>= f)
      (.error (.unexpected .closing rest.head?) : ParseResult β base) := by
  rw [expectClosing, bind_assoc]
  refine mirrors_peek_bind hrest ?_
  split
  · next position hhead =>
      obtain ⟨rest', hclosing⟩ := List.head?_eq_some_iff.mp hhead
      exact absurd hclosing (hnone position rest')
  · exact mirrors_halt_bind _

theorem Copies.closed {inside : Parser s.Tree}
    (h : Copies tokens (run tokens (.expression s)) inside) :
    Copies tokens (run tokens (.closed s)) (Parser.closed inside) := by
  intro i rest hrest
  have hinside := h i rest hrest
  refine mirrors_run hrest ?_
  rw [step, Parser.closed]
  split
  · next stop hstop =>
      rw [hstop] at hinside
      exact hinside.bind_error
  · next inner hinner =>
      rw [hinner] at hinside
      refine hinside.bind_ok fun j hj => ?_
      split
      · next position rest' hclosing =>
          rw [hclosing] at hj
          exact mirrors_closing_bind hj (mirrors_pure (r := ⟨inner.value, rest', _⟩) hj.next)
      · next hnone => exact mirrors_unclosed_bind hj hnone

/-- A group is read behind its parenthesis. -/
theorem mirrors_group {position : Nat} {parsed : ParseResult s.Tree rest}
    (hrest : Remains tokens i (⟨.opening, position⟩ :: rest))
    (h : Mirrors tokens (i + 1) (run tokens (.closed s)) parsed) :
    Mirrors tokens i (group tokens (run tokens) s)
      (parsed.map (Parsed.after ⟨.opening, position⟩)) :=
  mirrors_advance_bind hrest (h.after _)

theorem Copies.intPrimary {group : Parser IntExpr}
    (h : Copies tokens (run tokens (.closed .int)) group) :
    Copies tokens (run tokens (.primary .int)) (intOperand group) := by
  intro i rest hrest
  refine mirrors_run hrest (mirrors_peek_bind hrest ?_)
  cases rest with
  | nil => exact mirrors_halt _
  | cons token rest =>
      obtain ⟨lexeme, position⟩ := token
      cases lexeme with
      | opening =>
          have hgroup := mirrors_group hrest (h (i + 1) rest hrest.next)
          have hoperand : intOperand group (⟨.opening, position⟩ :: rest) =
              (group rest).map (Parsed.after ⟨.opening, position⟩) := by
            rw [intOperand]
            cases group rest <;> rfl
          rw [hoperand]
          exact hgroup
      | number digits =>
          refine mirrors_advance_bind hrest ?_
          rw [intOperand]
          split
          · exact mirrors_pure hrest.next
          · exact mirrors_halt _
      | keyword k =>
          cases k with
          | quantity q => exact mirrors_advance_bind hrest (mirrors_pure hrest.next)
          | weekday w short => exact mirrors_advance_bind hrest (mirrors_pure hrest.next)
          | truth value => exact mirrors_halt _
          | statement q => exact mirrors_halt _
      | operator o => exact mirrors_halt _
      | closing => exact mirrors_halt _

theorem Copies.relation {side : Parser IntExpr}
    (h : Copies tokens (run tokens (.expression .int)) side) :
    Copies tokens (run tokens .relation) (relation side) := by
  intro i rest hrest
  have hside := h i rest hrest
  refine mirrors_run hrest ?_
  rw [step, Parser.relation]
  split
  · next stop hstop =>
      rw [hstop] at hside
      exact hside.bind_error
  · next left hleft =>
      rw [hleft] at hside
      refine hside.bind_ok fun j hj => ?_
      split
      · next hnil =>
          rw [hnil] at hj
          exact mirrors_peek_bind hj (mirrors_halt _)
      · next token rest' hcons =>
          rw [hcons] at hj
          refine mirrors_peek_bind hj ?_
          cases hjoin : relationJoin token.lexeme with
          | none =>
              simp only [List.head?_cons, Option.bind_some, hjoin]
              exact mirrors_halt _
          | some f =>
              simp only [List.head?_cons, Option.bind_some, hjoin]
              have hright := h (j + 1) rest' hj.next
              refine mirrors_advance_bind hj ?_
              split
              · next stop hstop =>
                  rw [hstop] at hright
                  exact hright.bind_error
              · next right hread =>
                  rw [hread] at hright
                  exact hright.bind_ok fun k hk =>
                    mirrors_pure (r := ⟨f left.value right.value, right.rest, _⟩) hk

theorem Copies.boolPrimary {group comparison : Parser BoolExpr}
    (h : Copies tokens (run tokens (.closed .bool)) group)
    (hcomparison : Copies tokens (run tokens .relation) comparison) :
    Copies tokens (run tokens (.primary .bool)) (boolOperand group comparison) := by
  intro i rest hrest
  refine mirrors_run hrest (mirrors_peek_bind hrest ?_)
  cases rest with
  | nil => exact hcomparison i [] hrest
  | cons token rest =>
      obtain ⟨lexeme, position⟩ := token
      cases lexeme with
      | opening =>
          rw [boolOperand_opening]
          have hgroup := mirrors_group hrest (h (i + 1) rest hrest.next)
          exact hgroup.orReread (hcomparison i _ hrest)
      | keyword k =>
          cases k with
          | truth value => exact mirrors_advance_bind hrest (mirrors_pure hrest.next)
          | statement q => exact mirrors_advance_bind hrest (mirrors_pure hrest.next)
          | quantity q => exact hcomparison i _ hrest
          | weekday w short => exact hcomparison i _ hrest
      | number digits => exact hcomparison i _ hrest
      | operator o => exact hcomparison i _ hrest
      | closing => exact hcomparison i _ hrest

theorem copies_refuseNesting {α : Type} (m : Course α) : Copies tokens m refuseNesting :=
  fun _ rest _ => mirrors_nestedTooDeeply rest.head?

theorem copies_intPrimary (tokens : List Token) (n : Nat) :
    Copies tokens (run tokens (.primary .int)) (intPrimary n) := by
  induction n with
  | zero => exact (copies_refuseNesting _).intPrimary
  | succ n ih => exact ih.unary.expression.closed.intPrimary

theorem copies_intExpr (tokens : List Token) (n : Nat) :
    Copies tokens (run tokens (.expression .int)) (intExpr n) :=
  (copies_intPrimary tokens n).unary.expression

theorem copies_boolPrimary (tokens : List Token) (n : Nat) :
    Copies tokens (run tokens (.primary .bool)) (boolPrimary n) := by
  induction n with
  | zero => exact (copies_refuseNesting _).boolPrimary (copies_intExpr tokens 0).relation
  | succ n ih =>
      exact ih.unary.expression.closed.boolPrimary (copies_intExpr tokens (n + 1)).relation

theorem copies_boolExpr (tokens : List Token) (n : Nat) :
    Copies tokens (run tokens (.expression .bool)) (boolExpr n) :=
  (copies_boolPrimary tokens n).unary.expression

end Operands

section Runs

variable {tokens : List Token} {p n : Nat}

/-- The parser of a sort, in at most `nesting` parentheses. -/
def exprParser (nesting : Nat) : (s : ExprSort) → Parser s.Tree
  | .int => intExpr nesting
  | .bool => boolExpr nesting

theorem copies_exprParser (tokens : List Token) (n : Nat) (s : ExprSort) :
    Copies tokens (run tokens (.expression s)) (exprParser n s) := by
  cases s with
  | int => exact copies_intExpr tokens n
  | bool => exact copies_boolExpr tokens n

/-- No parser gives up where few parentheses are open at once. -/
theorem exprParser_ne_nestedTooDeeply (hfits : openPeak (lexemes tokens) ≤ n) (s : ExprSort)
    (next : Option Token) : exprParser n s tokens ≠ .error (.nestedTooDeeply next) := by
  cases s with
  | int => exact (locates_intExpr n).ne_nestedTooDeeply hfits next
  | bool => exact (locates_boolExpr n).ne_nestedTooDeeply hfits next

/-- What is certain of the runs from a place in a token list. -/
structure CursorSafe (tokens : List Token) (p : Nat) (trail : List Nat) : Prop where
  /-- Every routine comes to the same end with all calls that are deep enough. The cursor never
  leaves the list on the way and has passed a token if a tree was read. -/
  ends : ∀ {s : ExprSort} (r : Routine s), ∃ result c,
    (∀ depth, r.callDepth tokens p ≤ depth →
      runWithin tokens depth r ⟨p, trail⟩ = some (result, c)) ∧
    run tokens r ⟨p, trail⟩ = some (result, c) ∧ Ended tokens.length p trail r.gain result c
  /-- A run does what the routine does with runs of the routines that it calls. -/
  steps : ∀ {s : ExprSort} (r : Routine s),
    run tokens r ⟨p, trail⟩ = step tokens (run tokens) r ⟨p, trail⟩
  /-- A loop goes through rounds until it ends, with the tree that it has come to or in the
  operand of a further round. -/
  rounds : ∀ {s : ExprSort} (least : Nat) (left : s.Tree) result c,
    run tokens (.rounds least left) ⟨p, trail⟩ = some (result, c) →
      ∃ t last, Relation.ReflTransGen (Round tokens least) (left, ⟨p, trail⟩) (t, last) ∧
        (result = .ok t ∧ c = last ∨
          ∃ abort, result = .error abort ∧ ∀ y, ¬ Round tokens least (t, last) y)
  /-- A round passes two tokens. -/
  round_gains : ∀ {s : ExprSort} (least : Nat) (x y : s.Tree × Cursor),
    Round tokens least x y → x.2.position + 2 ≤ y.2.position ∧ y.2.position ≤ tokens.length
  /-- Where a group is refused by the grammar a comparison is read from its parenthesis on. -/
  rereads : ∀ position wanted next c, tokens[p]? = some ⟨.opening, position⟩ →
    group tokens (run tokens) .bool ⟨p, trail⟩ =
        some (.error (.stopped (.unexpected wanted next)), c) →
      run tokens (.primary .bool) ⟨p, trail⟩ = run tokens .relation ⟨p, p :: c.trail⟩
  /-- The tree, the end and the token where it stops are those of the parser of the sort. -/
  agrees : ∀ s n, openPeak (lexemes (tokens.drop p)) ≤ n → ∃ result c,
    run tokens (.expression s) ⟨p, trail⟩ = some (result, c) ∧
      Shows tokens (exprParser n s (tokens.drop p)) result c

/-- From every place in a token list the cursor runs safely. -/
theorem cursor_safe (hp : p ≤ tokens.length) (trail : List Nat) : CursorSafe tokens p trail where
  ends r := by
    obtain ⟨result, c, hrun, hend⟩ := gains_run hp r trail
    refine ⟨result, c, ?_, hrun, hend⟩
    exact fun depth hdepth => (runWithin_eq_run hp r hdepth).trans hrun
  steps r := run_eq_step hp r
  rounds least left result c h := rounds_of_run hp h
  round_gains least x y h := h.gains
  rereads position wanted next c htoken hgroup := by
    rw [run_eq_step hp, step, peek_bind (c := ⟨p, trail⟩) hp, htoken]
    exact orReread_of_refused hgroup
  agrees s n hfits :=
    copies_exprParser tokens n s p _ ⟨hp, rfl⟩ (exprParser_ne_nestedTooDeeply hfits s) trail

/-- A group that is not closed is read twice. -/
theorem cursor_safe_unclosed : CursorSafe [⟨.opening, 0⟩, ⟨.number ['1'], 1⟩] 0 [] :=
  cursor_safe (by decide) []

end Runs

end Parser

end DateRules
