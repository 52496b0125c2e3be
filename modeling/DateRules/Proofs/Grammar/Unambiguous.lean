import DateRules.Proofs.Grammar.Balance

/-!
# The grammar is unambiguous

A word of a chain may go on, with one of the operators of the chain or of its
operands. `Stops Ext s` says that what follows a word begins with no such
lexeme. Two languages `Agree` if two of their words that begin one list, and
that both stop there, are equal and write one tree. A language that agrees with
itself is unambiguous.

Agreement goes from operands to chains. The operands agree by induction over the
derivation. `Comparison.append_ne_group` is the crossing of the two sorts: what a
parenthesis opens is a boolean group or the left side of a comparison, never
both.
-/

namespace DateRules

namespace Grammar

section Combinations

variable {α : Type}

/-- What follows a word begins with no lexeme of the given kind. -/
def Stops (Ext : Lexeme → Prop) (s : List Lexeme) : Prop := ∀ x ∈ s.head?, ¬ Ext x

/-- The lexemes with which a chain goes on, where `Ext` are those with which its
operands do. -/
def Onward (Ext : Lexeme → Prop) (Join : Joins α) (x : Lexeme) : Prop :=
  Ext x ∨ ∃ f, Join x f

theorem stops_nil (Ext : Lexeme → Prop) : Stops Ext [] := by
  simp [Stops]

theorem stops_cons {Ext : Lexeme → Prop} {x : Lexeme} {s : List Lexeme} :
    Stops Ext (x :: s) ↔ ¬ Ext x := by
  simp [Stops]

theorem Stops.of_onward {Ext : Lexeme → Prop} {Join : Joins α} {s : List Lexeme}
    (h : Stops (Onward Ext Join) s) : Stops Ext s :=
  fun x hx hext => h x hx (.inl hext)

/-- The rest of a chain stops the operand before it. -/
theorem Repeated.stops {L : Phrases α} {Join : Joins α} {Ext : Lexeme → Prop}
    (hdisjoint : ∀ (x : Lexeme) (f : α → α → α), Join x f → ¬ Ext x)
    {l t : α} {w s : List Lexeme} (h : Repeated L Join l w t)
    (hs : Stops (Onward Ext Join) s) : Stops Ext (w ++ s) := by
  cases h with
  | done t => exact hs.of_onward
  | next join _ _ => exact stops_cons.mpr (hdisjoint _ _ join)

/-- Words of the two languages that begin one list are equal, and so are their
trees. -/
structure Agree (L M : Phrases α) (Ext : Lexeme → Prop) : Prop where
  eq : ∀ {u v s t : List Lexeme} {a b : α}, L u a → M v b → u ++ s = v ++ t →
    Stops Ext s → Stops Ext t → u = v ∧ a = b

variable {L M : Phrases α} {Ext : Lexeme → Prop} {Join : Joins α} {Apply : Prefixes α}

theorem Agree.repeated (hoperand : Agree L M Ext)
    (hunique : ∀ (x : Lexeme) (f g : α → α → α), Join x f → Join x g → f = g)
    (hdisjoint : ∀ (x : Lexeme) (f : α → α → α), Join x f → ¬ Ext x)
    {l a b : α} {u v s t : List Lexeme} (hu : Repeated L Join l u a)
    (hv : Repeated M Join l v b) (h : u ++ s = v ++ t)
    (hs : Stops (Onward Ext Join) s) (ht : Stops (Onward Ext Join) t) : u = v ∧ a = b := by
  induction hu generalizing v b with
  | done l =>
      cases hv with
      | done _ => exact ⟨rfl, rfl⟩
      | next join _ _ =>
          subst h
          exact absurd (.inr ⟨_, join⟩) (stops_cons.mp hs)
  | @next x f u₁ u₂ l r a join operand rest ih =>
      cases hv with
      | done _ =>
          change x :: (u₁ ++ u₂) ++ s = t at h
          subst h
          exact absurd (.inr ⟨_, join⟩) (stops_cons.mp ht)
      | @next y g v₁ v₂ _ r' _ join' operand' rest' =>
          obtain ⟨rfl, htail⟩ := List.cons.inj h
          obtain rfl := hunique _ _ _ join join'
          have hparts : u₁ ++ (u₂ ++ s) = v₁ ++ (v₂ ++ t) := by
            rw [← List.append_assoc, ← List.append_assoc]
            exact htail
          obtain ⟨rfl, rfl⟩ := hoperand.eq operand operand' hparts
            (rest.stops hdisjoint hs) (rest'.stops hdisjoint ht)
          obtain ⟨rfl, rfl⟩ := ih rest' (List.append_cancel_left hparts)
          exact ⟨rfl, rfl⟩

theorem Agree.chain (hoperand : Agree L M Ext)
    (hunique : ∀ (x : Lexeme) (f g : α → α → α), Join x f → Join x g → f = g)
    (hdisjoint : ∀ (x : Lexeme) (f : α → α → α), Join x f → ¬ Ext x) :
    Agree (Chain L Join) (Chain M Join) (Onward Ext Join) := by
  refine ⟨?_⟩
  intro u v s t a b hu hv h hs ht
  obtain @⟨u₁, u₂, l, _, first, rest⟩ := hu
  obtain @⟨v₁, v₂, l', _, first', rest'⟩ := hv
  rw [List.append_assoc, List.append_assoc] at h
  obtain ⟨rfl, rfl⟩ := hoperand.eq first first' h (rest.stops hdisjoint hs)
    (rest'.stops hdisjoint ht)
  obtain ⟨rfl, rfl⟩ := hoperand.repeated hunique hdisjoint rest rest'
    (List.append_cancel_left h) hs ht
  exact ⟨rfl, rfl⟩

/-- The property of a language that its words begin with lexemes that are none
of the given operators. -/
def HeadFree (L : Phrases α) (Apply : Prefixes α) : Prop :=
  ∀ (w : List Lexeme) (t : α), L w t → ∃ x v, w = x :: v ∧ ∀ f, ¬ Apply x f

theorem Agree.prefixed (hoperand : Agree L M Ext)
    (hL : HeadFree L Apply) (hM : HeadFree M Apply)
    (hunique : ∀ (x : Lexeme) (f g : α → α), Apply x f → Apply x g → f = g) :
    Agree (Prefixed L Apply) (Prefixed M Apply) Ext := by
  refine ⟨?_⟩
  intro u v s t a b hu hv h hs ht
  cases hu with
  | bare operand =>
      cases hv with
      | bare operand' => exact hoperand.eq operand operand' h hs ht
      | applied apply _ =>
          obtain ⟨x, w, rfl, hx⟩ := hL _ _ operand
          obtain ⟨rfl, -⟩ := List.cons.inj h
          exact absurd apply (hx _)
  | applied apply operand =>
      cases hv with
      | bare operand' =>
          obtain ⟨x, w, rfl, hx⟩ := hM _ _ operand'
          obtain ⟨rfl, -⟩ := List.cons.inj h
          exact absurd apply (hx _)
      | applied apply' operand' =>
          obtain ⟨rfl, htail⟩ := List.cons.inj h
          obtain rfl := hunique _ _ _ apply apply'
          obtain ⟨rfl, rfl⟩ := hoperand.eq operand operand' htail hs ht
          exact ⟨rfl, rfl⟩

end Combinations

section Integers

theorem SumJoin.unique {x : Lexeme} {f g : IntExpr → IntExpr → IntExpr} (hf : SumJoin x f)
    (hg : SumJoin x g) : f = g := by
  cases hf <;> cases hg <;> rfl

theorem ProductJoin.unique {x : Lexeme} {f g : IntExpr → IntExpr → IntExpr}
    (hf : ProductJoin x f) (hg : ProductJoin x g) : f = g := by
  cases hf <;> cases hg <;> rfl

theorem Sign.unique {x : Lexeme} {f g : IntExpr → IntExpr} (hf : Sign x f) (hg : Sign x g) :
    f = g := by
  cases hf <;> cases hg <;> rfl

theorem Relation.unique {x : Lexeme} {f g : IntExpr → IntExpr → BoolExpr} (hf : Relation x f)
    (hg : Relation x g) : f = g := by
  cases hf <;> cases hg <;> rfl

/-- No lexeme goes on with an integer operand. -/
def Never (_ : Lexeme) : Prop := False

abbrev ProductOnward : Lexeme → Prop := Onward Never ProductJoin

/-- The lexemes with which an integer expression goes on. -/
abbrev IntOnward : Lexeme → Prop := Onward ProductOnward SumJoin

theorem SumJoin.not_productOnward {x : Lexeme} {f : IntExpr → IntExpr → IntExpr}
    (h : SumJoin x f) : ¬ ProductOnward x := by
  rintro (hnever | ⟨g, hg⟩)
  · exact hnever
  · cases h <;> cases hg

theorem not_intOnward_of_isIntegral_eq_false {x : Lexeme} (h : isIntegral x = false) :
    ¬ IntOnward x := by
  rintro ((hnever | ⟨f, hf⟩) | ⟨f, hf⟩)
  · exact hnever
  · exact Bool.noConfusion (hf.isIntegral.symm.trans h)
  · exact Bool.noConfusion (hf.isIntegral.symm.trans h)

theorem not_intOnward_closing : ¬ IntOnward .closing := by
  rintro ((hnever | ⟨f, hf⟩) | ⟨f, hf⟩)
  · exact hnever
  · cases hf
  · cases hf

theorem Agree.intChain {L M : Phrases IntExpr} (hoperand : Agree L M Never)
    (hL : HeadFree L Sign) (hM : HeadFree M Sign) :
    Agree (IntChain L) (IntChain M) IntOnward := by
  have hfactor := hoperand.prefixed hL hM fun _ _ _ => Sign.unique
  have hproduct : Agree (Chain (Prefixed L Sign) ProductJoin)
      (Chain (Prefixed M Sign) ProductJoin) ProductOnward :=
    hfactor.chain (fun _ _ _ => ProductJoin.unique) fun _ _ _ hnever => hnever
  exact hproduct.chain (fun _ _ _ => SumJoin.unique) fun _ _ => SumJoin.not_productOnward

/-- Integer operands that begin one list are equal. The induction is on one of
the two derivations, with the other free. -/
theorem IntOperand.agree : Agree IntOperand IntOperand Never := by
  -- The head rides along, since the inner chains need it to tell signs from operands.
  let M : Phrases IntExpr := fun u a => (∃ x v, u = x :: v ∧ ∀ f, ¬ Sign x f) ∧
    ∀ {v s t : List Lexeme} {b : IntExpr}, IntOperand v b → u ++ s = v ++ t → u = v ∧ a = b
  refine ⟨?_⟩
  intro u v s t a b hu hv h _ _
  refine (IntOperand.least (M := M) ?_ ?_ ?_ ?_ hu).2 hv h
  · intro w a hw inside
    refine ⟨(IntOperand.group hw).head, ?_⟩
    intro v s t b hv h
    have hinside : Agree (IntChain M) (IntChain IntOperand) IntOnward :=
      Agree.intChain ⟨fun hu hv h _ _ => hu.2 hv h⟩ (fun _ _ hu => hu.1)
        fun _ _ => IntOperand.head
    cases hv with
    | @group w' _ inside' =>
        have hparts : w ++ .closing :: s = w' ++ .closing :: t := by
          simpa using h
        obtain ⟨rfl, rfl⟩ := hinside.eq inside inside' hparts
          (stops_cons.mpr not_intOnward_closing) (stops_cons.mpr not_intOnward_closing)
        exact ⟨rfl, rfl⟩
    | number _ => simp at h
    | quantity _ => simp at h
    | weekday _ _ => simp at h
  · intro digits
    refine ⟨(IntOperand.number digits).head, ?_⟩
    intro v s t b hv h
    cases hv <;> simp_all
  · intro q
    refine ⟨(IntOperand.quantity q).head, ?_⟩
    intro v s t b hv h
    cases hv <;> simp_all
  · intro d short
    refine ⟨(IntOperand.weekday d short).head, ?_⟩
    intro v s t b hv h
    cases hv <;> simp_all

theorem IntSentence.agree : Agree IntSentence IntSentence IntOnward :=
  IntOperand.agree.intChain (fun _ _ => IntOperand.head) fun _ _ => IntOperand.head

end Integers

section Booleans

theorem EquivalenceJoin.unique {x : Lexeme} {f g : BoolExpr → BoolExpr → BoolExpr}
    (hf : EquivalenceJoin x f) (hg : EquivalenceJoin x g) : f = g := by
  cases hf <;> cases hg <;> rfl

theorem JunctionJoin.unique {x : Lexeme} {f g : BoolExpr → BoolExpr → BoolExpr}
    (hf : JunctionJoin x f) (hg : JunctionJoin x g) : f = g := by
  cases hf <;> cases hg <;> rfl

theorem Negation.unique {x : Lexeme} {f g : BoolExpr → BoolExpr} (hf : Negation x f)
    (hg : Negation x g) : f = g := by
  cases hf
  cases hg
  rfl

abbrev JunctionOnward : Lexeme → Prop := Onward IntOnward JunctionJoin

abbrev BoolOnward : Lexeme → Prop := Onward JunctionOnward EquivalenceJoin

theorem JunctionJoin.not_intOnward {x : Lexeme} {f : BoolExpr → BoolExpr → BoolExpr}
    (h : JunctionJoin x f) : ¬ IntOnward x := by
  cases h <;> exact not_intOnward_of_isIntegral_eq_false rfl

theorem Relation.not_intOnward {x : Lexeme} {f : IntExpr → IntExpr → BoolExpr}
    (h : Relation x f) : ¬ IntOnward x :=
  not_intOnward_of_isIntegral_eq_false h.not_isIntegral

theorem EquivalenceJoin.not_junctionOnward {x : Lexeme} {f : BoolExpr → BoolExpr → BoolExpr}
    (h : EquivalenceJoin x f) : ¬ JunctionOnward x := by
  rintro (hint | ⟨g, hg⟩)
  · cases h <;> exact not_intOnward_of_isIntegral_eq_false rfl hint
  · cases h <;> cases hg

theorem not_boolOnward_closing : ¬ BoolOnward .closing := by
  rintro ((hint | ⟨f, hf⟩) | ⟨f, hf⟩)
  · exact not_intOnward_closing hint
  · cases hf
  · cases hf

theorem Agree.boolChain {L M : Phrases BoolExpr} (hoperand : Agree L M IntOnward)
    (hL : HeadFree L Negation) (hM : HeadFree M Negation) :
    Agree (BoolChain L) (BoolChain M) BoolOnward := by
  have hterm := hoperand.prefixed hL hM fun _ _ _ => Negation.unique
  have hjunction : Agree (Chain (Prefixed L Negation) JunctionJoin)
      (Chain (Prefixed M Negation) JunctionJoin) JunctionOnward :=
    hterm.chain (fun _ _ _ => JunctionJoin.unique) fun _ _ => JunctionJoin.not_intOnward
  exact hjunction.chain (fun _ _ _ => EquivalenceJoin.unique)
    fun _ _ => EquivalenceJoin.not_junctionOnward

/-- An integer expression that begins with a parenthesis begins with a group. -/
theorem IntSentence.group_of_opening {w : List Lexeme} {a : IntExpr}
    (h : IntSentence (.opening :: w) a) :
    ∃ v u b, w = v ++ .closing :: u ∧ IntSentence v b := by
  obtain ⟨p, u, b, hp, hw⟩ := h.first_of_ranks
  cases hp with
  | bare operand =>
      cases operand with
      | @group v _ inside =>
          refine ⟨v, u, b, ?_, inside⟩
          simpa using hw
      | number _ => simp at hw
      | quantity _ => simp at hw
      | weekday _ _ => simp at hw
  | applied apply _ =>
      obtain ⟨rfl, -⟩ := List.cons.inj hw
      cases apply

theorem group_append (w s : List Lexeme) :
    .opening :: (w ++ [.closing]) ++ s = Lexeme.opening :: (w ++ .closing :: s) := by
  simp

/-- A parenthesis does not open both a boolean group and an integer
expression. -/
theorem IntSentence.append_ne_group {w v s u : List Lexeme} {a : IntExpr} {b : BoolExpr}
    (hv : IntSentence v a) (hw : BoolSentence w b) :
    v ++ u ≠ .opening :: (w ++ .closing :: s) := by
  intro h
  cases v with
  | nil => exact hv.ne_nil rfl
  | cons x v =>
      obtain ⟨rfl, htail⟩ := List.cons.inj h
      obtain ⟨g, r, c, rfl, hg⟩ := hv.group_of_opening
      have hparts : g ++ .closing :: (r ++ u) = w ++ .closing :: s := by
        simpa using htail
      -- Both words end where the first parenthesis is closed, so one word has both sorts.
      obtain ⟨rfl, -⟩ := hg.balanced.append_closing_inj hw.balanced hparts
      exact hg.not_boolSentence hw

theorem Comparison.append_ne_group {w v s u : List Lexeme} {a b : BoolExpr}
    (hv : Comparison v a) (hw : BoolSentence w b) :
    v ++ u ≠ .opening :: (w ++ .closing :: s) := by
  obtain ⟨left, relation, right⟩ := hv
  rw [List.append_assoc]
  exact left.append_ne_group hw

theorem Comparison.append_ne_cons {v u s : List Lexeme} {a : BoolExpr} {x : Lexeme}
    (hv : Comparison v a) (hx : isIntegral x = false) : v ++ u ≠ x :: s := by
  intro h
  obtain ⟨y, w, rfl, hy⟩ := hv.head
  obtain ⟨rfl, -⟩ := List.cons.inj h
  exact Bool.noConfusion (hy.symm.trans hx)

theorem Comparison.agree : Agree Comparison Comparison IntOnward := by
  refine ⟨?_⟩
  intro u v s t a b hu hv h hs ht
  obtain ⟨left, relation, right⟩ := hu
  obtain ⟨left', relation', right'⟩ := hv
  rw [List.append_assoc, List.append_assoc] at h
  obtain ⟨rfl, rfl⟩ := IntSentence.agree.eq left left' h
    (stops_cons.mpr relation.not_intOnward) (stops_cons.mpr relation'.not_intOnward)
  obtain ⟨rfl, htail⟩ := List.cons.inj (List.append_cancel_left h)
  obtain rfl := relation.unique relation'
  obtain ⟨rfl, rfl⟩ := IntSentence.agree.eq right right' htail hs ht
  exact ⟨rfl, rfl⟩

/-- Boolean operands that begin one list are equal. The induction is on one of
the two derivations, with the other free. -/
theorem BoolOperand.agree : Agree BoolOperand BoolOperand IntOnward := by
  let M : Phrases BoolExpr := fun u a => (∃ x v, u = x :: v ∧ ∀ f, ¬ Negation x f) ∧
    ∀ {v s t : List Lexeme} {b : BoolExpr}, BoolOperand v b → u ++ s = v ++ t →
      Stops IntOnward s → Stops IntOnward t → u = v ∧ a = b
  refine ⟨?_⟩
  intro u v s t a b hu hv h hs ht
  refine (BoolOperand.least (M := M) ?_ ?_ ?_ ?_ hu).2 hv h hs ht
  · intro w a hw inside
    refine ⟨(BoolOperand.group hw).head, ?_⟩
    intro v s t b hv h _ _
    have hinside : Agree (BoolChain M) (BoolChain BoolOperand) BoolOnward :=
      Agree.boolChain ⟨fun hu hv h hs ht => hu.2 hv h hs ht⟩ (fun _ _ hu => hu.1)
        fun _ _ => BoolOperand.head
    cases hv with
    | @group w' _ inside' =>
        have hparts : w ++ .closing :: s = w' ++ .closing :: t := by
          simpa using h
        obtain ⟨rfl, rfl⟩ := hinside.eq inside inside' hparts
          (stops_cons.mpr not_boolOnward_closing) (stops_cons.mpr not_boolOnward_closing)
        exact ⟨rfl, rfl⟩
    | truth _ => simp at h
    | statement _ => simp at h
    | comparison comparison =>
        rw [group_append] at h
        exact absurd h.symm (comparison.append_ne_group hw)
  · intro value
    refine ⟨(BoolOperand.truth value).head, ?_⟩
    intro v s t b hv h _ _
    cases hv with
    | group _ => simp at h
    | truth _ => simp_all
    | statement _ => simp at h
    | comparison comparison => exact absurd h.symm (comparison.append_ne_cons rfl)
  · intro q
    refine ⟨(BoolOperand.statement q).head, ?_⟩
    intro v s t b hv h _ _
    cases hv with
    | group _ => simp at h
    | truth _ => simp at h
    | statement _ => simp_all
    | comparison comparison => exact absurd h.symm (comparison.append_ne_cons rfl)
  · intro u a comparison
    refine ⟨(BoolOperand.comparison comparison).head, ?_⟩
    intro v s t b hv h hs ht
    cases hv with
    | group inside' =>
        rw [group_append] at h
        exact absurd h (comparison.append_ne_group inside')
    | truth _ => exact absurd h (comparison.append_ne_cons rfl)
    | statement _ => exact absurd h (comparison.append_ne_cons rfl)
    | comparison comparison' => exact Comparison.agree.eq comparison comparison' h hs ht

theorem BoolSentence.agree : Agree BoolSentence BoolSentence BoolOnward :=
  BoolOperand.agree.boolChain (fun _ _ => BoolOperand.head) fun _ _ => BoolOperand.head

end Booleans

theorem IntSentence.unique {w : List Lexeme} {a b : IntExpr} (ha : IntSentence w a)
    (hb : IntSentence w b) : a = b :=
  (IntSentence.agree.eq ha hb rfl (stops_nil _) (stops_nil _)).2

theorem BoolSentence.unique {w : List Lexeme} {a b : BoolExpr} (ha : BoolSentence w a)
    (hb : BoolSentence w b) : a = b :=
  (BoolSentence.agree.eq ha hb rfl (stops_nil _) (stops_nil _)).2

end Grammar

end DateRules
