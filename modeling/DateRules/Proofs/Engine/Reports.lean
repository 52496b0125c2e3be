import DateRules.Proofs.Engine.Sessions
import DateRules.Proofs.Rule.Strategies

/-!
# The reports of an engine

`strategies_report` says what the strategies report of a list of rules on a date and when
they report nothing because a rule is not readable, and that an engine reports by the
strategy that it holds and the rules that are listed when it is asked.
-/

namespace DateRules

/-- Whatever rules are listed, the strategies report the rules that apply, in their
order: all of them, the first by descending priority, or the first of the list. A rule
that is not readable makes the question fail if it is asked. -/
theorem strategies_report (stack : CallStack) (rules : List Rule) (d : Date) :
    ((∀ r ∈ rules, r.Readable stack) →
      ∃ ranked declared : List (Rule × Nat),
        Applicable stack .allMatch rules d ranked ∧ Applicable stack .firstMatch rules d declared ∧
        matching stack .allMatch rules d =
          .ok (ranked.map fun a => ⟨a.1.id, d, a.1.priority, a.1.description⟩) ∧
        matching stack .priority rules d =
          .ok (ranked.head?.toList.map fun a => ⟨a.1.id, d, a.1.priority, a.1.description⟩) ∧
        matching stack .firstMatch rules d =
          .ok (declared.head?.toList.map fun a => ⟨a.1.id, d, a.1.priority, a.1.description⟩) ∧
        ∀ strategy, matching stack strategy rules d = .ok [] ↔ ∀ r ∈ rules, ¬ r.Applies stack d) ∧
    (Fails (matching stack .allMatch rules d) ↔ ∃ r ∈ rules, ¬ r.Readable stack) ∧
    (∀ strategy, strategy ≠ .allMatch →
      (Fails (matching stack strategy rules d) ↔
        ∃ a ∈ rules.zipIdx, ¬ a.1.Readable stack ∧
          ∀ b ∈ rules.zipIdx, AskedBefore strategy b a → ¬ b.1.Applies stack d)) ∧
    (∀ settings : Settings,
      ((Session.start ⟨settings, rules⟩).perform stack (.matching d)).1 =
        Session.reply .reports (matching stack settings.strategy rules d)) ∧
    ∀ (ruleSet : RuleSet) (commands : List Command),
      let s := ((Session.start ruleSet).run (commands.map (Call.mk stack))).2
      (s.perform stack (.matching d)).1 =
        Session.reply .reports (matching stack s.heldSettings.strategy s.ruleSet.rules d) := by
  refine ⟨?_, fails_matching_allMatch_iff, fun strategy => fails_matching_iff, ?_, ?_⟩
  · intro hreadable
    refine ⟨_, _, applicable_filter stack .allMatch rules d,
      applicable_filter stack .firstMatch rules d,
      matching_eq_ok hreadable .allMatch d, matching_eq_ok hreadable .priority d,
      matching_eq_ok hreadable .firstMatch d, ?_⟩
    intro strategy
    rw [matching_eq_ok hreadable, Except.ok.injEq, reportsOf_eq_nil_iff,
      (applicable_filter stack strategy rules d).eq_nil_iff]
  · intro settings
    have hcoherent := Session.coherent_run_one ⟨settings, rules⟩ stack []
    have hperform := Session.perform_matching (Set.mem_singleton stack) hcoherent d
    rwa [List.map_nil, Session.run, Session.ruleSet_start] at hperform
  · intro ruleSet commands
    exact Session.perform_matching (Set.mem_singleton stack)
      (Session.coherent_run_one ruleSet stack commands) d

/-- Two rules of one priority are reported in the order of the list, after a rule of a
higher one; the first rule of the list comes last. -/
theorem strategies_report_tie :
    let rules : List Rule := [⟨"low", "true", -1, none⟩, ⟨"left", "true", 0, none⟩,
      ⟨"right", "true", 0, none⟩, ⟨"high", "true", 7, none⟩]
    matching .least .allMatch rules .last = .ok [⟨"high", .last, 7, none⟩, ⟨"left", .last, 0, none⟩,
      ⟨"right", .last, 0, none⟩, ⟨"low", .last, -1, none⟩] ∧
    matching .least .firstMatch rules .last = .ok [⟨"low", .last, -1, none⟩] := by
  intro rules
  have hcondition : ∀ r ∈ rules, r.condition = "true" := by decide
  have happlies : ∀ r ∈ rules, r.Applies .least .last := fun r hr =>
    Rule.applies_of_true (hcondition r hr) .last
  have hreadable : ∀ r ∈ rules, r.Readable .least := fun r hr => (happlies r hr).readable
  obtain ⟨ranked, declared, hranked, hdeclared, hall, -, hfirst, -⟩ :=
    (strategies_report .least rules .last).1 hreadable
  have hranked' : ranked = [(rules[3], 3), (rules[1], 1), (rules[2], 2), (rules[0], 0)] := by
    refine hranked.unique (applicable_of_forall happlies (by simp [AskedBefore, rules]) fun a => ?_)
    simp only [rules, List.zipIdx_cons, List.zipIdx_nil, List.mem_cons, List.not_mem_nil]
    tauto
  have hdeclared' : declared = rules.zipIdx := by
    refine hdeclared.unique (applicable_of_forall happlies ?_ fun _ => Iff.rfl)
    simp [AskedBefore, rules]
  subst hranked' hdeclared'
  exact ⟨hall, hfirst⟩

end DateRules
