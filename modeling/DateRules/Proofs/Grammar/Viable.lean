import DateRules.Proofs.Grammar.Unambiguous

/-!
# Viable prefixes

A list of lexemes is `Viable` for a language if a word of the language begins with it. The
place where a list stops to be viable is its fault: `FaultAt L w k` says that the first `k`
lexemes of `w` are viable and that the next one is too much, or the end of the list, where
`k` is its length. A list is a word or has a fault (`exists_word_or_faultAt`), and only one
(`FaultAt.unique`).

A parser knows of a list only what it has seen, which is some beginning `u` and the lexeme
`next` after it. `Possible L Ext u next o` says that `o` may be a word at the front of such a
list. If there is none the list is `Blocked`, and if there is none but `u` it is `Settled`,
whatever else follows. A word that does not go on is settled, if the language agrees with
itself (`Agree.settled`). Both go from the last operand of a chain to the chain
(`Before.blocked`, `Before.settled`).
-/

namespace DateRules

namespace Grammar

section Faults

variable {α : Type} {L : Phrases α} {u v w : List Lexeme} {j k : Nat} {t : α}

/-- A word of the language begins with the given lexemes. -/
def Viable (L : Phrases α) (u : List Lexeme) : Prop := ∃ v t, L (u ++ v) t

theorem viable_of_word (h : L w t) : Viable L w := by
  refine ⟨[], t, ?_⟩
  rwa [List.append_nil]

theorem Viable.shorten (h : Viable L v) (hu : u <+: v) : Viable L u := by
  obtain ⟨s, rfl⟩ := hu
  obtain ⟨r, t, hword⟩ := h
  rw [List.append_assoc] at hword
  exact ⟨s ++ r, t, hword⟩

theorem Viable.mono {M : Phrases α} (h : Viable L u) (hle : ∀ w t, L w t → M w t) :
    Viable M u := by
  obtain ⟨v, t, hword⟩ := h
  exact ⟨v, t, hle _ _ hword⟩

/-- The first `k` lexemes begin a word of the language, and do no longer with the one after
them. At the end of the list there is none after them, and they are no word. -/
structure FaultAt (L : Phrases α) (w : List Lexeme) (k : Nat) : Prop where
  within : k ≤ w.length
  before : Viable L (w.take k)
  after : k < w.length → ¬ Viable L (w.take (k + 1))
  atEnd : k = w.length → ∀ t, ¬ L w t

theorem FaultAt.not_word (h : FaultAt L w k) : ¬ L w t := by
  intro hword
  rcases Nat.lt_or_eq_of_le h.within with hlt | heq
  · exact h.after hlt ((viable_of_word hword).shorten (List.take_prefix _ _))
  · exact h.atEnd heq t hword

/-- No viable beginning of the list goes beyond its fault. -/
theorem FaultAt.length_le (h : FaultAt L w k) (hu : u <+: w) (hviable : Viable L u) :
    u.length ≤ k := by
  refine Nat.le_of_not_lt fun hlt => ?_
  have hafter : w.take (k + 1) <+: u :=
    List.prefix_of_prefix_length_le (List.take_prefix _ _) hu (by simp; omega)
  exact h.after (Nat.lt_of_lt_of_le hlt hu.length_le) (hviable.shorten hafter)

/-- A list has at most one fault. -/
theorem FaultAt.unique (hj : FaultAt L w j) (hk : FaultAt L w k) : j = k := by
  have hle : ∀ {j k}, FaultAt L w j → FaultAt L w k → j ≤ k := by
    intro j k hj hk
    have hlength := hk.length_le (List.take_prefix j w) hj.before
    rwa [List.length_take_of_le hj.within] at hlength
  exact Nat.le_antisymm (hle hj hk) (hle hk hj)

theorem viable_or_faultAt (hnil : Viable L []) (hk : k ≤ w.length) :
    Viable L (w.take k) ∨ ∃ j, FaultAt L w j := by
  induction k with
  | zero => exact .inl hnil
  | succ k ih =>
      rcases ih (Nat.le_of_succ_le hk) with hbefore | hfault
      · by_cases hafter : Viable L (w.take (k + 1))
        · exact .inl hafter
        · exact .inr ⟨k, Nat.le_of_succ_le hk, hbefore, fun _ => hafter, fun heq => by omega⟩
      · exact .inr hfault

/-- A list that is no word has a fault. -/
theorem exists_word_or_faultAt (hnil : Viable L []) (w : List Lexeme) :
    (∃ t, L w t) ∨ ∃ k, FaultAt L w k := by
  rcases viable_or_faultAt hnil (Nat.le_refl w.length) with hviable | hfault
  · by_cases hword : ∃ t, L w t
    · exact .inl hword
    · exact .inr ⟨w.length, Nat.le_refl _, hviable, fun hlt => absurd hlt (Nat.lt_irrefl _),
        fun _ t ht => hword ⟨t, ht⟩⟩
  · exact .inr hfault

end Faults

section Lookahead

variable {α : Type} {L : Phrases α} {Ext : Lexeme → Prop} {u v o r : List Lexeme}
  {next : Option Lexeme} {x : Lexeme} {t : α}

/-- A list that begins with `u`, and goes on with `next`, may begin with the word `o`. -/
def Possible (L : Phrases α) (Ext : Lexeme → Prop) (u : List Lexeme) (next : Option Lexeme)
    (o : List Lexeme) : Prop :=
  ∃ m s t, m.head? = next ∧ u ++ m = o ++ s ∧ Stops Ext s ∧ L o t

/-- No list that begins with `u`, and goes on with `next`, begins with a word. -/
def Blocked (L : Phrases α) (Ext : Lexeme → Prop) (u : List Lexeme)
    (next : Option Lexeme) : Prop :=
  ∀ o, ¬ Possible L Ext u next o

/-- A list that begins with `u`, and goes on with `next`, begins with no word but `u`. -/
def Settled (L : Phrases α) (Ext : Lexeme → Prop) (u : List Lexeme)
    (next : Option Lexeme) : Prop :=
  ∀ o, Possible L Ext u next o → o = u

/-- The place of a fault, as far as a parser sees the list. -/
structure Fault (L : Phrases α) (Ext : Lexeme → Prop) (u : List Lexeme)
    (next : Option Lexeme) : Prop where
  viable : Viable L u
  blocked : Blocked L Ext u next

theorem Blocked.of_possible {β : Type} {M : Phrases β} {Ext' : Lexeme → Prop}
    (h : Blocked L Ext u next)
    (hle : ∀ o, Possible M Ext' v next o → ∃ o', Possible L Ext u next o') :
    Blocked M Ext' v next := by
  intro o ho
  obtain ⟨o', ho'⟩ := hle o ho
  exact h o' ho'

theorem Possible.mem_head (h : Possible L Ext u next (x :: o)) : x ∈ u.head?.or next := by
  obtain ⟨m, s, t, rfl, hsplit, -, -⟩ := h
  rw [← List.head?_append, hsplit]
  rfl

/-- What is blocked early is blocked later. -/
theorem Blocked.append (h : Blocked L Ext u (v ++ r).head?) : Blocked L Ext (u ++ v) r.head? := by
  rintro o ⟨m, s, t, hm, hsplit, hs, hword⟩
  refine h o ⟨v ++ m, s, t, ?_, ?_, hs, hword⟩
  · rw [List.head?_append, List.head?_append, hm]
  · rw [← List.append_assoc]
    exact hsplit

theorem possible_word (h : L (u ++ x :: v) t) : Possible L Ext u (some x) (u ++ x :: v) :=
  ⟨x :: v, [], t, rfl, (List.append_nil _).symm, stops_nil Ext, h⟩

theorem Viable.append_singleton (Ext : Lexeme → Prop) (h : Viable L (u ++ [x])) :
    ∃ v, Possible L Ext u (some x) (u ++ x :: v) := by
  obtain ⟨v, t, hword⟩ := h
  rw [List.append_assoc] at hword
  exact ⟨v, possible_word hword⟩

theorem Blocked.not_viable (h : Blocked L Ext u (some x)) : ¬ Viable L (u ++ [x]) := by
  intro hviable
  obtain ⟨v, hpossible⟩ := hviable.append_singleton Ext
  exact h _ hpossible

theorem Settled.not_viable (h : Settled L Ext u (some x)) : ¬ Viable L (u ++ [x]) := by
  intro hviable
  obtain ⟨v, hpossible⟩ := hviable.append_singleton Ext
  have hlength := congrArg List.length (h _ hpossible)
  simp at hlength

theorem Agree.settled (hagree : Agree L L Ext) (hword : L u t)
    (hnext : ∀ x ∈ next, ¬ Ext x) : Settled L Ext u next := by
  rintro o ⟨m, s, t', rfl, hsplit, hs, ho⟩
  exact (hagree.eq hword ho hsplit hnext hs).1.symm

theorem take_length_succ (u : List Lexeme) (x : Lexeme) (r : List Lexeme) :
    (u ++ x :: r).take (u.length + 1) = u ++ [x] := by
  simp [List.take_append, List.take_of_length_le]

/-- Where a parser was blocked the list has its fault. -/
theorem Fault.faultAt (h : Fault L Ext u r.head?) : FaultAt L (u ++ r) u.length := by
  refine ⟨by simp, ?_, ?_, ?_⟩
  · rw [List.take_left]
    exact h.viable
  · intro hlt
    cases r with
    | nil => simp at hlt
    | cons x r =>
        rw [take_length_succ]
        exact h.blocked.not_viable
  · intro hend t hword
    obtain rfl : r = [] := List.length_eq_zero_iff.mp (by simpa using hend.symm)
    refine h.blocked (u ++ []) ⟨[], [], t, rfl, ?_, stops_nil Ext, hword⟩
    rw [List.append_nil, List.append_nil]

/-- A word with which nothing goes on has the fault of the list after it. -/
theorem Settled.faultAt (h : Settled L Ext u (some x)) (hword : L u t) :
    FaultAt L (u ++ x :: r) u.length := by
  refine ⟨by simp, ?_, fun _ => ?_, fun hend => ?_⟩
  · rw [List.take_left]
    exact viable_of_word hword
  · rw [take_length_succ]
    exact h.not_viable
  · simp at hend

end Lookahead

section Chains

variable {α : Type} {L : Phrases α} {Ext : Lexeme → Prop} {Join : Joins α}
  {p u v w o s m : List Lexeme} {next : Option Lexeme} {x : Lexeme} {f : α → α → α} {l t a b : α}

/-- What stands before the last operand of a chain: nothing, or a chain with an operator. -/
inductive Before (L : Phrases α) (Join : Joins α) : List Lexeme → Prop
  | start : Before L Join []
  | operator {w : List Lexeme} {x : Lexeme} {f : α → α → α} {t : α} (chain : Chain L Join w t)
      (join : Join x f) : Before L Join (w ++ [x])

theorem Repeated.append (hu : Repeated L Join l u a) (hv : Repeated L Join a v b) :
    Repeated L Join l (u ++ v) b := by
  induction hu with
  | done a => exact hv
  | next join operand _ ih =>
      rw [List.cons_append, List.append_assoc]
      exact .next join operand (ih hv)

theorem Chain.append (h : Chain L Join w t) (hjoin : Join x f) (hu : L u a) :
    Chain L Join (w ++ x :: u) (f t a) := by
  obtain ⟨first, rest⟩ := h
  have hrest : Repeated L Join t (x :: (u ++ [])) (f t a) := .next hjoin hu (.done _)
  rw [List.append_nil] at hrest
  rw [List.append_assoc]
  exact .mk first (rest.append hrest)

theorem Before.chain (h : Before L Join p) (hu : L u a) : ∃ t, Chain L Join (p ++ u) t := by
  cases h with
  | start => exact ⟨a, .single hu⟩
  | operator chain join =>
      rw [List.append_assoc]
      exact ⟨_, chain.append join hu⟩

theorem Before.viable (h : Before L Join p) (hu : Viable L u) :
    Viable (Chain L Join) (p ++ u) := by
  obtain ⟨v, a, hword⟩ := hu
  obtain ⟨t, hchain⟩ := h.chain hword
  rw [← List.append_assoc] at hchain
  exact ⟨v, t, hchain⟩

/-- What follows a chain with an operator after it stops the operand before. -/
theorem Repeated.stops_join (hdisjoint : ∀ (x : Lexeme) (f : α → α → α), Join x f → ¬ Ext x)
    (h : Repeated L Join l w t) (hjoin : Join x f) : Stops Ext (w ++ x :: m) := by
  cases h with
  | done t => exact stops_cons.mpr (hdisjoint _ _ hjoin)
  | next join _ _ => exact stops_cons.mpr (hdisjoint _ _ join)

/-- A chain that goes on where another one has an operator has that chain, the operator and an
operand in it. -/
theorem Repeated.go_on (hagree : Agree L L Ext)
    (hunique : ∀ (x : Lexeme) (f g : α → α → α), Join x f → Join x g → f = g)
    (hdisjoint : ∀ (x : Lexeme) (f : α → α → α), Join x f → ¬ Ext x)
    (hw : Repeated L Join l w a) (hjoin : Join x f) (hv : Repeated L Join l v b)
    (hsplit : w ++ x :: m = v ++ s) (hs : Stops (Onward Ext Join) s) :
    ∃ o v' r, v = w ++ x :: (o ++ v') ∧ L o r ∧ Repeated L Join (f a r) v' b := by
  induction hw generalizing v with
  | done l =>
      cases hv with
      | done _ =>
          obtain rfl : x :: m = s := hsplit
          exact absurd (.inr ⟨f, hjoin⟩) (stops_cons.mp hs)
      | next join operand rest =>
          obtain ⟨rfl, -⟩ := List.cons.inj hsplit
          obtain rfl := hunique _ _ _ hjoin join
          exact ⟨_, _, _, rfl, operand, rest⟩
  | @next y g w₁ w₂ l r a join operand rest ih =>
      cases hv with
      | done _ =>
          obtain rfl : y :: (w₁ ++ w₂) ++ x :: m = s := hsplit
          exact absurd (.inr ⟨g, join⟩) (stops_cons.mp hs)
      | @next _ _ v₁ v₂ _ r' _ join' operand' rest' =>
          obtain ⟨rfl, htail⟩ := List.cons.inj hsplit
          obtain rfl := hunique _ _ _ join join'
          have hparts : w₁ ++ (w₂ ++ x :: m) = v₁ ++ (v₂ ++ s) := by
            rw [← List.append_assoc, ← List.append_assoc]
            exact htail
          obtain ⟨rfl, rfl⟩ := hagree.eq operand operand' hparts
            (rest.stops_join hdisjoint hjoin) (rest'.stops hdisjoint hs)
          obtain ⟨o, v', r', rfl, ho, hrest⟩ := ih rest' (List.append_cancel_left hparts)
          exact ⟨o, v', r', by simp, ho, hrest⟩

theorem Repeated.joins_head (h : Repeated L Join l w t) : ∀ x ∈ w.head?, ∃ f, Join x f := by
  rintro x hx
  cases h with
  | done _ => cases hx
  | next join _ _ =>
      cases hx
      exact ⟨_, join⟩

/-- Where a word of a chain is possible an operand is where the last one begins. The word ends
after that operand or goes on with an operator. -/
theorem Before.possible (hagree : Agree L L Ext)
    (hunique : ∀ (x : Lexeme) (f g : α → α → α), Join x f → Join x g → f = g)
    (hdisjoint : ∀ (x : Lexeme) (f : α → α → α), Join x f → ¬ Ext x) (hp : Before L Join p)
    (h : Possible (Chain L Join) (Onward Ext Join) (p ++ u) next o) :
    ∃ o' v m s, m.head? = next ∧ u ++ m = o' ++ (v ++ s) ∧ Possible L Ext u next o' ∧
      o = p ++ (o' ++ v) ∧ ∀ x ∈ v.head?, ∃ f, Join x f := by
  obtain ⟨m, s, t, hm, hsplit, hs, hword⟩ := h
  cases hp with
  | start =>
      obtain ⟨o', v, l, rfl, hfirst, hrest⟩ := hword.first
      rw [List.nil_append, List.append_assoc] at hsplit
      exact ⟨o', v, m, s, hm, hsplit,
        ⟨m, v ++ s, l, hm, hsplit, hrest.stops hdisjoint hs, hfirst⟩, rfl, hrest.joins_head⟩
  | @operator w x f a chain join =>
      obtain ⟨w₁, w₂, l, rfl, hfirst, hrest⟩ := chain.first
      obtain ⟨v₁, v₂, l', rfl, hfirst', hrest'⟩ := hword.first
      have hparts : w₁ ++ (w₂ ++ x :: (u ++ m)) = v₁ ++ (v₂ ++ s) := by
        simpa using hsplit
      obtain ⟨rfl, rfl⟩ := hagree.eq hfirst hfirst' hparts (hrest.stops_join hdisjoint join)
        (hrest'.stops hdisjoint hs)
      have htails := List.append_cancel_left hparts
      obtain ⟨o', v, r, rfl, ho, hafter⟩ :=
        hrest.go_on hagree hunique hdisjoint join hrest' htails hs
      have hend : u ++ m = o' ++ (v ++ s) := by
        simpa using htails
      exact ⟨o', v, m, s, hm, hend, ⟨m, v ++ s, r, hm, hend, hafter.stops hdisjoint hs, ho⟩,
        by simp, hafter.joins_head⟩

theorem Before.blocked (hagree : Agree L L Ext)
    (hunique : ∀ (x : Lexeme) (f g : α → α → α), Join x f → Join x g → f = g)
    (hdisjoint : ∀ (x : Lexeme) (f : α → α → α), Join x f → ¬ Ext x) (hp : Before L Join p)
    (h : Blocked L Ext u next) : Blocked (Chain L Join) (Onward Ext Join) (p ++ u) next := by
  refine h.of_possible fun o ho => ?_
  obtain ⟨o', v, m, s, -, -, hpossible, -, -⟩ := hp.possible hagree hunique hdisjoint ho
  exact ⟨o', hpossible⟩

theorem Before.settled (hagree : Agree L L Ext)
    (hunique : ∀ (x : Lexeme) (f g : α → α → α), Join x f → Join x g → f = g)
    (hdisjoint : ∀ (x : Lexeme) (f : α → α → α), Join x f → ¬ Ext x) (hp : Before L Join p)
    (h : Settled L Ext u next) (hnext : ∀ x ∈ next, ∀ f, ¬ Join x f) :
    Settled (Chain L Join) (Onward Ext Join) (p ++ u) next := by
  intro o ho
  obtain ⟨o', v, m, s, rfl, hsplit, hpossible, rfl, hv⟩ :=
    hp.possible hagree hunique hdisjoint ho
  obtain rfl := h o' hpossible
  obtain rfl := List.append_cancel_left hsplit
  -- An operator that went on with the chain would be the lexeme that was seen.
  cases v with
  | nil => rw [List.append_nil]
  | cons x v =>
      obtain ⟨f, hf⟩ := hv x rfl
      exact absurd hf (hnext x rfl f)

end Chains

section Operators

variable {α : Type} {L : Phrases α} {Ext : Lexeme → Prop} {Apply : Prefixes α}
  {u o : List Lexeme} {next : Option Lexeme} {x : Lexeme} {f : α → α}

theorem Viable.bare (h : Viable L u) : Viable (Prefixed L Apply) u :=
  h.mono fun _ _ => .bare

theorem Viable.applied (happly : Apply x f) (h : Viable L u) :
    Viable (Prefixed L Apply) (x :: u) := by
  obtain ⟨v, t, hword⟩ := h
  exact ⟨v, f t, .applied happly hword⟩

/-- After an operator that may precede an operand only the operand is possible. -/
theorem Possible.of_applied (hhead : HeadFree L Apply) (happly : Apply x f)
    (h : Possible (Prefixed L Apply) Ext (x :: u) next o) :
    ∃ o', o = x :: o' ∧ Possible L Ext u next o' := by
  obtain ⟨m, s, t, hm, hsplit, hs, hword⟩ := h
  cases hword with
  | bare operand =>
      obtain ⟨y, v, rfl, hy⟩ := hhead _ _ operand
      obtain ⟨rfl, -⟩ := List.cons.inj hsplit
      exact absurd happly (hy f)
  | @applied _ _ o' _ _ operand =>
      obtain ⟨rfl, htail⟩ := List.cons.inj hsplit
      exact ⟨o', rfl, m, s, _, hm, htail, hs, operand⟩

/-- Where no such operator comes first only an operand is possible. -/
theorem Possible.of_bare (hfirst : ∀ x ∈ u.head?.or next, ∀ f, ¬ Apply x f)
    (h : Possible (Prefixed L Apply) Ext u next o) : Possible L Ext u next o := by
  obtain ⟨m, s, t, rfl, hsplit, hs, hword⟩ := h
  cases hword with
  | bare operand => exact ⟨m, s, t, rfl, hsplit, hs, operand⟩
  | applied apply _ =>
      refine absurd apply (hfirst _ ?_ _)
      rw [← List.head?_append, hsplit]
      rfl

end Operators

end Grammar

end DateRules
