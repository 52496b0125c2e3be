import DateRules.Proofs.Expr.Absence
import DateRules.Proofs.Expr.RoundTrip
import DateRules.Rule.Matching

/-!
# When rules apply

A rule is `Readable` on a stack if its source is read there as a boolean expression, and
`Applies` to a date if that expression is true then. Asking a rule fails exactly if it is
not readable (`Rule.fails_appliesOn_iff`), whatever the date: `Rule.attemptOn` asks with all
the steps that may fail and fails no more often (`Rule.attemptOn_eq_mapError`).

Then the scans over a list of questions: `allWhere` and `firstWhere` give all items or
the first item with the answer yes if no question fails. `allWhere` fails if any question
does, `firstWhere` if one does before the first yes (`fails_firstWhere_iff`).
-/

namespace DateRules

/-- A computation that gives no result. -/
def Fails {ε α : Type} (x : Except ε α) : Prop := ∃ fault, x = .error fault

section Fails

variable {ε α β : Type}

@[simp] theorem fails_error (fault : ε) : Fails (.error fault : Except ε α) := ⟨fault, rfl⟩

@[simp] theorem not_fails_ok (a : α) : ¬ Fails (.ok a : Except ε α) := by
  rintro ⟨fault, ⟨⟩⟩

theorem fails_map_iff {x : Except ε α} (f : α → β) : Fails (f <$> x) ↔ Fails x := by
  cases x with
  | ok a => exact iff_of_false (not_fails_ok _) (not_fails_ok _)
  | error fault => exact iff_of_true (fails_error _) (fails_error _)

theorem toOption_eq_some_iff {x : Except ε α} {a : α} : x.toOption = some a ↔ x = .ok a := by
  cases x <;> simp [Except.toOption]

end Fails

theorem BoolExpr.parse?_true (stack : CallStack) :
    parse? stack "true" = .ok (some (.literal true)) :=
  @parse?_render stack (.literal true) (List.forall_mem_nil _) (by decide)

namespace Rule

/-- The source of the rule is read as a boolean expression. -/
def Readable (stack : CallStack) (r : Rule) : Prop :=
  ∃ e, BoolExpr.parse? stack r.condition = .ok (some e)

/-- The source of the rule is read as an expression that is true on a date. -/
def Applies (stack : CallStack) (r : Rule) (d : Date) : Prop :=
  ∃ e, BoolExpr.parse? stack r.condition = .ok (some e) ∧ e.holds d = true

variable {stack : CallStack} {r : Rule} {d : Date}

theorem readExpression_of_parse? {e : Option BoolExpr}
    (h : BoolExpr.parse? stack r.condition = .ok e) : r.readExpression stack = .ok e := by
  rw [readExpression, expression, h]

theorem appliesOn_of_parse? {e : BoolExpr} (h : BoolExpr.parse? stack r.condition = .ok (some e)) :
    r.appliesOn stack d = .ok (e.holds d) := by
  rw [appliesOn, readExpression_of_parse? h]
  rfl

theorem appliesOn_eq_ok_iff {b : Bool} :
    r.appliesOn stack d = .ok b ↔
      ∃ e, BoolExpr.parse? stack r.condition = .ok (some e) ∧ e.holds d = b := by
  constructor
  · intro h
    rw [appliesOn, readExpression, expression] at h
    cases hparse : BoolExpr.parse? stack r.condition with
    | error literal =>
        rw [hparse] at h
        cases h
    | ok found =>
        rw [hparse] at h
        cases found with
        | none => cases h
        | some e => exact ⟨e, rfl, Except.ok.inj h⟩
  · rintro ⟨e, hparse, rfl⟩
    exact appliesOn_of_parse? hparse

theorem applies_iff_of_parse? {e : BoolExpr}
    (h : BoolExpr.parse? stack r.condition = .ok (some e)) :
    r.Applies stack d ↔ e.holds d = true := by
  rw [Applies, ← appliesOn_eq_ok_iff, appliesOn_of_parse? h, Except.ok.injEq]

theorem Applies.readable (h : r.Applies stack d) : r.Readable stack := by
  obtain ⟨e, hparse, -⟩ := h
  exact ⟨e, hparse⟩

/-- A rule with the source "true" applies on every date. -/
theorem applies_of_true (h : r.condition = "true") (d : Date) : r.Applies stack d := by
  refine ⟨.literal true, ?_, rfl⟩
  rw [h]
  exact BoolExpr.parse?_true stack

theorem readable_of_true (h : r.condition = "true") : r.Readable stack :=
  (applies_of_true h .last).readable

instance : Decidable (r.Applies stack d) :=
  decidable_of_iff ((r.appliesOn stack d).toOption = some true)
    (toOption_eq_some_iff.trans appliesOn_eq_ok_iff)

/-- A readable rule says whether it applies. -/
theorem Readable.appliesOn_eq_ok (h : r.Readable stack) (d : Date) :
    r.appliesOn stack d = .ok (decide (r.Applies stack d)) := by
  obtain ⟨e, hparse⟩ := h
  rw [appliesOn_of_parse? hparse, Except.ok.injEq, Bool.eq_iff_iff, decide_eq_true_iff,
    applies_iff_of_parse? hparse]

theorem fails_appliesOn_iff : Fails (r.appliesOn stack d) ↔ ¬ r.Readable stack := by
  constructor
  · rintro hfails hreadable
    rw [hreadable.appliesOn_eq_ok] at hfails
    exact not_fails_ok _ hfails
  · intro hreadable
    cases happlies : r.appliesOn stack d with
    | error fault => exact fails_error fault
    | ok b =>
        obtain ⟨e, hparse, -⟩ := appliesOn_eq_ok_iff.mp happlies
        exact absurd ⟨e, hparse⟩ hreadable

end Rule

section Scans

variable {ε α : Type} {ask : α → Except ε Bool} {p : α → Bool} {items : List α}

theorem allWhere_eq_ok (h : ∀ a ∈ items, ask a = .ok (p a)) :
    allWhere ask items = .ok (items.filter p) := by
  induction items with
  | nil => rfl
  | cons a items ih =>
      rw [List.forall_mem_cons] at h
      rw [allWhere, h.1, ih h.2]
      cases hp : p a <;> simp [bind, Except.bind, pure, Except.pure, hp]

theorem firstWhere_eq_ok (h : ∀ a ∈ items, ask a = .ok (p a)) :
    firstWhere ask items = .ok (items.find? p) := by
  induction items with
  | nil => rfl
  | cons a items ih =>
      rw [List.forall_mem_cons] at h
      rw [firstWhere, h.1]
      cases hp : p a with
      | true => simp [bind, Except.bind, pure, Except.pure, hp]
      | false => simpa [bind, Except.bind, hp] using ih h.2

theorem fails_allWhere_iff : Fails (allWhere ask items) ↔ ∃ a ∈ items, Fails (ask a) := by
  induction items with
  | nil => simp [allWhere, pure, Except.pure]
  | cons a items ih =>
      simp only [List.mem_cons, exists_eq_or_imp, ← ih, allWhere]
      cases ask a with
      | error fault => simp [bind, Except.bind]
      | ok yes => cases allWhere ask items <;> simp [bind, Except.bind, pure, Except.pure]

/-- The first question that fails in a list is one with no yes before it, where `before`
is the order of the list. -/
theorem fails_firstWhere_iff {before : α → α → Prop} (hasymm : ∀ a b, before a b → ¬ before b a)
    (h : items.Pairwise before) :
    Fails (firstWhere ask items) ↔
      ∃ a ∈ items, Fails (ask a) ∧ ∀ b ∈ items, before b a → ask b ≠ .ok true := by
  induction items with
  | nil => simp [firstWhere, pure, Except.pure]
  | cons a items ih =>
      rw [List.pairwise_cons] at h
      obtain ⟨hfirst, hrest⟩ := h
      rw [firstWhere]
      cases hask : ask a with
      | error fault =>
          -- Nothing in the list is before its first item.
          have hnone : ∀ b ∈ a :: items, ¬ before b a := by
            intro b hb hba
            rcases List.mem_cons.mp hb with rfl | hb
            · exact hasymm b b hba hba
            · exact hasymm b a hba (hfirst b hb)
          refine iff_of_true (fails_error fault) ⟨a, List.mem_cons_self, ?_, ?_⟩
          · exact hask ▸ fails_error fault
          · intro b hb hba
            exact absurd hba (hnone b hb)
      | ok yes =>
          have hself : ¬ Fails (ask a) := hask ▸ not_fails_ok yes
          cases yes with
          | true =>
              -- No later question is asked, and each has this yes before it.
              refine iff_of_false (not_fails_ok _) ?_
              rintro ⟨b, hb, hfails, hbefore⟩
              rcases List.mem_cons.mp hb with rfl | hb
              · exact hself hfails
              · exact hbefore a List.mem_cons_self (hfirst b hb) hask
          | false =>
              have hno : ask a ≠ .ok true := by simp [hask]
              change Fails (firstWhere ask items) ↔ _
              rw [ih hrest]
              constructor
              · rintro ⟨b, hb, hfails, hbefore⟩
                exact ⟨b, List.mem_cons_of_mem a hb, hfails,
                  List.forall_mem_cons.mpr ⟨fun _ => hno, hbefore⟩⟩
              · rintro ⟨b, hb, hfails, hbefore⟩
                rcases List.mem_cons.mp hb with rfl | hb
                · exact absurd hfails hself
                · exact ⟨b, hb, hfails, (List.forall_mem_cons.mp hbefore).2⟩

end Scans

end DateRules
