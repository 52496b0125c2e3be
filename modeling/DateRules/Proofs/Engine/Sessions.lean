import DateRules.Proofs.Engine.Effects

/-!
# What sessions remember

Every command keeps the cells of a session coherent (`Session.coherent_perform`), and
so does every list of calls (`Session.coherent_run`), if the callers read alike the sources
that the commands bring in. The answer of a coherent session to a question is the one that
its rules give by themselves, as they are now: `Session.ask_fst` and its cases for the
commands that ask.
-/

namespace DateRules

namespace Session

section Asking

variable {callers : Set CallStack} {s : Session} {α : Type} {q : Query s.ruleCount α}
  {answer : α → Answer} {f : Vector Rule s.ruleCount → Except RuleFault α}

theorem ask_fst (h : CoherentCells callers s.rules) (hq : Query.Answers callers q f) :
    (s.ask q answer).1 = reply answer (f (rulesOf s.rules)) := by
  rw [ask_eq, hq.result h]

/-- A question leaves every rule as it is. -/
theorem rule_ask (h : CoherentCells callers s.rules) (hq : Query.Answers callers q f)
    (i : Fin s.ruleCount) :
    ((q.run s.rules).2.get i).rule = (s.rules.get i).rule := by
  rw [← get_rulesOf, hq.rules h, get_rulesOf]

end Asking

section Coherence

variable {callers : Set CallStack} {stack : CallStack} {s t : Session}

theorem rule_updateRule (s : Session) (i j : Fin s.ruleCount) (f : Rule → Rule) :
    ((s.updateRule i f).rules.get j).rule =
      if i = j then f (s.rules.get j).rule else (s.rules.get j).rule := by
  change ((putCell s.rules i _).get j).rule = _
  rw [get_putCell]
  split
  · next h => rw [h]
  · rfl

theorem coherent_updateRule (h : CoherentCells callers s.rules) (i : Fin s.ruleCount)
    {f : Rule → Rule} (hagree : AgreeOn callers (f (s.rules.get i).rule).condition) :
    CoherentCells callers (s.updateRule i f).rules :=
  h.putCell i ((h i).withRule hagree)

theorem coherent_append (h : CoherentCells callers s.rules) {cell : RuleCell}
    (hcell : cell.Coherent callers) : CoherentCells callers (s.append cell).rules :=
  coherentCells_push h hcell

/-- No command leaves a cell that remembers something else than its source says. -/
theorem Effect.coherent {command : Command} (h : Effect callers s command t)
    (hagrees : command.Agrees callers) (hs : CoherentCells callers s.rules) :
    CoherentCells callers t.rules := by
  cases h with
  | unchanged => exact hs
  | asked _ hq => exact hq.coherent hs
  | assigned hrule => exact coherent_updateRule hs _ (hagrees.assigned hrule (hs _).agree)
  | tuned => exact hs
  | attached => exact hs
  | appended hstack hread =>
      exact coherent_append hs (RuleCell.coherent_ofRule (hagrees _ hstack _ hread))
  | erased => exact hs
  | copied => exact coherent_append hs ((hs _).change hagrees)
  | rebuilt => exact hs

theorem coherent_perform (hstack : stack ∈ callers) (h : CoherentCells callers s.rules)
    {command : Command} (hagrees : command.Agrees callers) :
    CoherentCells callers (s.perform stack command).2.rules :=
  (effect_perform hstack s command).coherent hagrees h

theorem coherent_start {ruleSet : RuleSet} (h : ∀ r ∈ ruleSet.rules, AgreeOn callers r.condition) :
    CoherentCells callers (start ruleSet).rules := by
  intro i
  have hi : i.val < (ruleSet.rules.map RuleCell.ofRule).toArray.size := i.isLt
  change ((ruleSet.rules.map RuleCell.ofRule).toArray[i.val]).Coherent callers
  rw [List.getElem_toArray, List.getElem_map]
  exact RuleCell.coherent_ofRule (h _ (List.getElem_mem _))

theorem coherent_run (h : CoherentCells callers s.rules) {calls : List Call}
    (hcalls : ∀ call ∈ calls, call.stack ∈ callers ∧ call.command.Agrees callers) :
    CoherentCells callers (s.run calls).2.rules := by
  induction calls generalizing s with
  | nil => exact h
  | cons call calls ih =>
      rw [List.forall_mem_cons] at hcalls
      obtain ⟨⟨hstack, hagrees⟩, hrest⟩ := hcalls
      exact ih (coherent_perform hstack h hagrees) hrest

/-- Commands that are all carried out on one stack. -/
theorem coherent_run_one (ruleSet : RuleSet) (stack : CallStack) (commands : List Command) :
    CoherentCells {stack} ((start ruleSet).run (commands.map (Call.mk stack))).2.rules := by
  refine coherent_run (coherent_start fun r _ => agreeOn_singleton stack r.condition) ?_
  intro call hcall
  obtain ⟨command, -, rfl⟩ := List.mem_map.mp hcall
  exact ⟨rfl, command.agrees_singleton stack⟩

theorem ruleSet_rules (s : Session) :
    s.ruleSet.rules = s.listed.map (rulesOf s.rules).get := by
  rw [ruleSet]
  exact List.map_congr_left fun i _ => (get_rulesOf s.rules i).symm

theorem rule_start (ruleSet : RuleSet) (i : Fin (start ruleSet).ruleCount) :
    some ((start ruleSet).rules.get i).rule = ruleSet.rules[i.val]? := by
  have hi : i.val < (ruleSet.rules.map RuleCell.ofRule).toArray.size := i.isLt
  change some ((ruleSet.rules.map RuleCell.ofRule).toArray[i.val]).rule = _
  rw [List.getElem_toArray, List.getElem_map, List.getElem?_eq_getElem]
  rfl

theorem ruleSet_start (ruleSet : RuleSet) : (start ruleSet).ruleSet = ruleSet := by
  have hrules : ((start ruleSet).listed.map fun i => ((start ruleSet).rules.get i).rule) =
      ruleSet.rules := by
    have hlength : (start ruleSet).listed.length = ruleSet.rules.length := by simp [start]
    apply List.ext_getElem?
    intro k
    rw [List.getElem?_map]
    rcases Nat.lt_or_ge k (start ruleSet).listed.length with hk | hk
    · rw [List.getElem?_eq_getElem hk, Option.map_some, rule_start]
      simp [start]
    · rw [List.getElem?_eq_none hk, List.getElem?_eq_none (hlength ▸ hk), Option.map_none]
  exact congrArg (RuleSet.mk ruleSet.settings) hrules

/-- The reports of a session are those of the rules that its rule set lists. -/
theorem perform_matching (hstack : stack ∈ callers) (h : CoherentCells callers s.rules)
    (day : Date) :
    (s.perform stack (.matching day)).1 =
      reply .reports (DateRules.matching stack s.heldSettings.strategy s.ruleSet.rules day) := by
  rw [ruleSet_rules]
  exact ask_fst h (Query.answers_matching hstack _ _ day)

/-- The agenda of a session is that of the rules that its rule set lists. -/
theorem perform_agenda (hstack : stack ∈ callers) (h : CoherentCells callers s.rules)
    (start : Date) (count : Option Int) :
    (s.perform stack (.agenda start count)).1 =
      reply .agenda (agendaOf stack s.heldSettings.strategy s.ruleSet.rules
        (window start (s.countOf count))) := by
  rw [ruleSet_rules]
  exact ask_fst h (Query.answers_agenda hstack _ _ _)

end Coherence

end Session

end DateRules
