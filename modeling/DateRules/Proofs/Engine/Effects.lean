import DateRules.Engine.Command
import DateRules.Proofs.Engine.Coherence

/-!
# What commands make of a session

`Effect callers s command t` lists the ways in which a command leads from the session `s` to
`t`, each with what must be so for it, where one of the callers carries out the command.
`effect_perform` says that there are no others. What all commands keep is proved by the cases
of `Effect`.
-/

namespace DateRules

namespace Command

/-- The commands that only ask. -/
def Asks : Command → Prop
  | .matching _ | .next _ _ _ | .agenda _ _ | .get _ | .applies _ _ | .expression _
  | .inspect => True
  | _ => False

/-- The id through which a command assigns to a rule, and the rule that it makes. -/
def assignment? : Command → Option (String × (Rule → Rule))
  | .setCondition id condition => some (id, ({ · with condition := condition }))
  | .setPriority id priority => some (id, ({ · with priority := priority }))
  | .setId id newId => some (id, ({ · with id := newId }))
  | _ => none

/-- What a command assigns to the settings that are attached to the rule set. -/
def settingsChange? : Command → Option (Settings → Settings)
  | .setStrategy strategy => some ({ · with strategy := strategy })
  | .setWindowDays days => some ({ · with windowDays := days })
  | _ => none

/-- The commands that list rules or take them from the list, and the one that attaches
settings. -/
def Rearranges : Command → Prop
  | .replaceSettings _ | .appendRule _ | .removeRule _ | .copyRule _ _ => True
  | _ => False

/-- The callers read alike what the command makes the source of a rule. -/
def Agrees (callers : Set CallStack) : Command → Prop
  | .setCondition _ condition => AgreeOn callers condition
  | .copyRule _ change => ∀ condition ∈ change.condition, AgreeOn callers condition
  | .appendRule data => ∀ stack ∈ callers, ∀ r, Rule.ofValue stack data = .ok r →
      AgreeOn callers r.condition
  | _ => True

variable {command : Command}

/-- A caller always agrees with itself. -/
theorem agrees_singleton (stack : CallStack) (command : Command) : command.Agrees {stack} := by
  cases command with
  | setCondition id condition => exact agreeOn_singleton stack condition
  | copyRule id change => exact fun condition _ => agreeOn_singleton stack condition
  | appendRule data => exact fun _ _ r _ => agreeOn_singleton stack r.condition
  | _ => trivial

theorem Agrees.assigned {callers : Set CallStack} {id : String} {change : Rule → Rule}
    (h : command.Agrees callers) (hrule : command.assignment? = some (id, change)) {r : Rule}
    (hr : AgreeOn callers r.condition) : AgreeOn callers (change r).condition := by
  cases command with
  | setCondition id condition =>
      cases hrule
      exact h
  | setPriority id priority =>
      cases hrule
      exact hr
  | setId id newId =>
      cases hrule
      exact hr
  | _ => cases hrule

theorem Asks.assignment?_eq_none (h : command.Asks) : command.assignment? = none := by
  cases command with
  | setCondition id condition => exact h.elim
  | setPriority id priority => exact h.elim
  | setId id newId => exact h.elim
  | _ => rfl

theorem Asks.settingsChange?_eq_none (h : command.Asks) : command.settingsChange? = none := by
  cases command with
  | setStrategy strategy => exact h.elim
  | setWindowDays days => exact h.elim
  | _ => rfl

theorem Asks.agrees (h : command.Asks) (callers : Set CallStack) : command.Agrees callers := by
  cases command with
  | setCondition id condition => exact h.elim
  | copyRule id change => exact h.elim
  | appendRule data => exact h.elim
  | _ => trivial

/-- No command assigns both to a rule and to the settings. -/
theorem settingsChange?_eq_none {assigned : String × (Rule → Rule)}
    (h : command.assignment? = some assigned) : command.settingsChange? = none := by
  cases command with
  | setStrategy strategy => cases h
  | setWindowDays days => cases h
  | _ => rfl

theorem assignment?_eq_none {change : Settings → Settings}
    (h : command.settingsChange? = some change) : command.assignment? = none := by
  cases hrule : command.assignment? with
  | none => rfl
  | some assigned =>
      rw [settingsChange?_eq_none hrule] at h
      cases h

end Command

namespace Session

variable {callers : Set CallStack} {stack : CallStack} {s : Session}

/-- The outcome of a question, as an answer to a command. -/
def reply {α : Type} (answer : α → Answer) (result : Except RuleFault α) :
    Except CommandFault Answer :=
  (result.map answer).mapError .rule

theorem ask_eq {α : Type} {q : Query s.ruleCount α} {answer : α → Answer} : s.ask q answer =
    (reply answer (q.run s.rules).1, { s with rules := (q.run s.rules).2 }) := by
  unfold ask
  generalize q.run s.rules = outcome
  obtain ⟨result | result, after⟩ := outcome <;> rfl

theorem withRule_of_find? {id : String} {i : Fin s.ruleCount} (h : s.find? id = some i)
    (act : Fin s.ruleCount → Outcome) : s.withRule id act = act i := by
  rw [withRule, h]

theorem withRule_of_find?_eq_none {id : String} (h : s.find? id = none)
    (act : Fin s.ruleCount → Outcome) : s.withRule id act = (.error (.unknownRule id), s) := by
  rw [withRule, h]

theorem withRule_rec {P : Session → Prop} {id : String} {act : Fin s.ruleCount → Outcome}
    (hnone : s.find? id = none → P s) (hact : ∀ i, s.find? id = some i → P (act i).2) :
    P (s.withRule id act).2 := by
  cases hid : s.find? id with
  | none =>
      rw [withRule_of_find?_eq_none hid]
      exact hnone hid
  | some i =>
      rw [withRule_of_find? hid]
      exact hact i hid

theorem withChecked_rec {P : Session → Prop} {α : Type} {checked : Checked α} {act : α → Session}
    (hfail : P s) (hact : ∀ a, checked = .ok a → P (act a)) : P (s.withChecked checked act).2 := by
  cases checked with
  | ok a => exact hact a rfl
  | error issues => exact hfail

/-- The session after a command, by what the command does. -/
inductive Effect (callers : Set CallStack) (s : Session) : Command → Session → Prop where
  /-- A command that only tells what there is, or that fails. -/
  | unchanged {command : Command}
      (hrule : ∀ id change, command.assignment? = some (id, change) → s.find? id = none)
      (hsettings : command.settingsChange? = none) : Effect callers s command s
  /-- A question, after which the cells may remember more. -/
  | asked {command : Command} {α : Type} {q : Query s.ruleCount α}
      {f : Vector Rule s.ruleCount → Except RuleFault α} (hasks : command.Asks)
      (hq : Query.Answers callers q f) :
      Effect callers s command { s with rules := (q.run s.rules).2 }
  | assigned {command : Command} {id : String} {change : Rule → Rule} {i : Fin s.ruleCount}
      (hrule : command.assignment? = some (id, change)) (hi : s.find? id = some i) :
      Effect callers s command (s.updateRule i change)
  | tuned {command : Command} {change : Settings → Settings}
      (hsettings : command.settingsChange? = some change) :
      Effect callers s command (s.updateSettings change)
  | attached {data : Value} {settings : Settings} (h : Settings.ofValue data = .ok settings) :
      Effect callers s (.replaceSettings data) (s.attachSettings settings)
  | appended {stack : CallStack} {data : Value} {rule : Rule} (hstack : stack ∈ callers)
      (h : Rule.ofValue stack data = .ok rule) :
      Effect callers s (.appendRule data) (s.append (.ofRule rule))
  | erased {position : Int} {k : Nat} (h : positionIn s.listed.length position = some k) :
      Effect callers s (.removeRule position) (s.eraseListed k)
  | copied {id : String} {change : RuleChange} {i : Fin s.ruleCount} (hi : s.find? id = some i) :
      Effect callers s (.copyRule id change) (s.append ((s.rules.get i).change change))
  | rebuilt : Effect callers s .rebuild s.rebuild

theorem effect_ask {command : Command} {α : Type} {q : Query s.ruleCount α} {answer : α → Answer}
    {f : Vector Rule s.ruleCount → Except RuleFault α} (hasks : command.Asks)
    (hq : Query.Answers callers q f) : Effect callers s command (s.ask q answer).2 := by
  rw [ask_eq]
  exact .asked hasks hq

theorem effect_of_asks {command : Command} (hasks : command.Asks) : Effect callers s command s :=
  .unchanged (by simp [hasks.assignment?_eq_none]) hasks.settingsChange?_eq_none

/-- An assignment through an id changes the rule that the engine finds, if it finds one. -/
theorem effect_assign {command : Command} {id : String} {change : Rule → Rule}
    (hrule : command.assignment? = some (id, change)) :
    Effect callers s command (s.withRule id fun i => (.ok .done, s.updateRule i change)).2 := by
  refine withRule_rec (P := Effect callers s command) (fun hnone => ?_) fun i hi =>
    .assigned hrule hi
  refine .unchanged (fun id' change' h => ?_) (Command.settingsChange?_eq_none hrule)
  rw [hrule] at h
  cases h
  exact hnone

/-- Every command has one of these effects. -/
theorem effect_perform (hstack : stack ∈ callers) (s : Session) (command : Command) :
    Effect callers s command (s.perform stack command).2 := by
  cases command with
  | matching day => exact effect_ask trivial (Query.answers_matching hstack _ _ _)
  | next id start count =>
      exact withRule_rec (P := Effect callers s _) (fun _ => effect_of_asks trivial) fun i _ =>
        effect_ask trivial (Query.answers_next hstack _ _ _)
  | agenda start count => exact effect_ask trivial (Query.answers_agenda hstack _ _ _)
  | get id =>
      exact withRule_rec (P := Effect callers s _) (fun _ => effect_of_asks trivial) fun i _ =>
        effect_of_asks trivial
  | applies id day =>
      exact withRule_rec (P := Effect callers s _) (fun _ => effect_of_asks trivial) fun i _ =>
        effect_ask trivial (Query.answers_appliesOn hstack _ _)
  | expression id =>
      exact withRule_rec (P := Effect callers s _) (fun _ => effect_of_asks trivial) fun i _ =>
        effect_ask trivial (Query.answers_expression hstack _)
  | inspect => exact effect_of_asks trivial
  | setCondition id condition => exact effect_assign rfl
  | setPriority id priority => exact effect_assign rfl
  | setId id newId => exact effect_assign rfl
  | setStrategy strategy =>
      exact @Effect.tuned callers s (.setStrategy strategy) ({ · with strategy := strategy }) rfl
  | setWindowDays days =>
      exact @Effect.tuned callers s (.setWindowDays days) ({ · with windowDays := days }) rfl
  | replaceSettings data =>
      exact withChecked_rec (P := Effect callers s _) (.unchanged nofun rfl) fun settings =>
        .attached
  | appendRule data =>
      exact withChecked_rec (P := Effect callers s _) (.unchanged nofun rfl) fun rule =>
        .appended hstack
  | removeRule position =>
      rw [perform]
      split
      · next k hk => exact .erased hk
      · exact .unchanged nofun rfl
  | copyRule id change =>
      exact withRule_rec (P := Effect callers s _) (fun _ => .unchanged nofun rfl) fun i => .copied
  | rebuild => exact .rebuilt

end Session

end DateRules
