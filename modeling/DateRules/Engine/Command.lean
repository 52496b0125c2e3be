import DateRules.Engine.Query

/-!
# Commands

What can be asked of a session and done to it. A `Call` is a command with the stack on
which it is carried out. `Session.perform` carries out one command and `Session.run` a
list of calls; a command that fails leaves an error in place of its answer, and the
session goes on.
-/

namespace DateRules

/-- The things to ask of a session or to do to it. -/
inductive Command where
  /-- The rules that apply on a day. -/
  | matching (day : Date)
  /-- The first day of a window on which a rule applies. -/
  | next (id : String) (start : Date) (count : Option Int)
  /-- The days of a window on which any rule applies. -/
  | agenda (start : Date) (count : Option Int)
  | get (id : String)
  | applies (id : String) (day : Date)
  | expression (id : String)
  /-- The rule set and the settings of the engine. -/
  | inspect
  | setCondition (id condition : String)
  | setPriority (id : String) (priority : Int)
  | setId (id newId : String)
  | setStrategy (strategy : MatchStrategy)
  | setWindowDays (days : Int)
  /-- Attach new settings, read from data. -/
  | replaceSettings (data : Value)
  /-- List a new rule, read from data. -/
  | appendRule (data : Value)
  /-- Take a rule out of the list. Negative positions count from its end. -/
  | removeRule (position : Int)
  /-- List a changed copy of a rule. -/
  | copyRule (id : String) (change : RuleChange)
  /-- Build the engine anew. -/
  | rebuild

/-- A command and the stack that is left to it. -/
structure Call where
  stack : CallStack
  command : Command

/-- The answers to commands. -/
inductive Answer where
  | done
  | reports (reports : List RuleMatch)
  | day (day : Option Date)
  | agenda (entries : List (Date × List String))
  | rule (rule : Rule)
  | truth (value : Bool)
  | expression (expr : Option BoolExpr)
  | state (ruleSet : RuleSet) (engineSettings : Settings)
deriving DecidableEq, Repr

/-- The ways in which commands fail. -/
inductive CommandFault where
  | rule (fault : RuleFault)
  | unknownRule (id : String)
  | invalid (issues : List Issue)
  | noSuchPosition
deriving DecidableEq, Repr

/-- The message about an id that the engine does not find. -/
def unknownRuleMessage (id : String) : String := "Unknown rule: " ++ id

/-- The position in a list of the given length that a number means. -/
def positionIn (length : Nat) (position : Int) : Option Nat :=
  let counted := if position < 0 then position + length else position
  if 0 ≤ counted && counted < length then some counted.toNat else none

namespace Session

/-- The outcome of a command and the session after it. -/
abbrev Outcome := Except CommandFault Answer × Session

/-- Asks a query, and keeps what the rule cells remember. -/
def ask {α : Type} (s : Session) (query : Query s.ruleCount α) (answer : α → Answer) :
    Outcome :=
  let (result, rules) := query.run s.rules
  match result with
  | .ok a => (.ok (answer a), { s with rules := rules })
  | .error fault => (.error (.rule fault), { s with rules := rules })

/-- Does something with the rule that the engine finds under an id. -/
def withRule (s : Session) (id : String) (act : Fin s.ruleCount → Outcome) : Outcome :=
  match s.find? id with
  | some i => act i
  | none => (.error (.unknownRule id), s)

/-- Does something with data that describes a value. -/
def withChecked {α : Type} (s : Session) (checked : Checked α) (act : α → Session) :
    Outcome :=
  match checked with
  | .ok a => (.ok .done, act a)
  | .error issues => (.error (.invalid issues), s)

/-- The number of days of a window. -/
def countOf (s : Session) (count : Option Int) : Int := count.getD s.heldSettings.windowDays

/-- Carries out a command on a stack. -/
def perform (s : Session) (stack : CallStack) : Command → Outcome
  | .matching day =>
      s.ask (Query.matching stack s.heldSettings.strategy s.listed day) .reports
  | .next id start count =>
      s.withRule id fun i => s.ask (Query.next stack i start (s.countOf count)) .day
  | .agenda start count =>
      s.ask
        (Query.agenda stack s.heldSettings.strategy s.listed
          (window start (s.countOf count)))
        .agenda
  | .get id => s.withRule id fun i => (.ok (.rule (s.rules.get i).rule), s)
  | .applies id day => s.withRule id fun i => s.ask (Query.appliesOn stack day i) .truth
  | .expression id => s.withRule id fun i => s.ask (Query.expression stack i) .expression
  | .inspect => (.ok (.state s.ruleSet s.heldSettings), s)
  | .setCondition id condition =>
      s.withRule id fun i => (.ok .done, s.updateRule i ({ · with condition := condition }))
  | .setPriority id priority =>
      s.withRule id fun i => (.ok .done, s.updateRule i ({ · with priority := priority }))
  | .setId id newId =>
      s.withRule id fun i => (.ok .done, s.updateRule i ({ · with id := newId }))
  | .setStrategy strategy =>
      (.ok .done, s.updateSettings ({ · with strategy := strategy }))
  | .setWindowDays days =>
      (.ok .done, s.updateSettings ({ · with windowDays := days }))
  | .replaceSettings data => s.withChecked (Settings.ofValue data) s.attachSettings
  | .appendRule data =>
      s.withChecked (Rule.ofValue stack data) fun rule => s.append (.ofRule rule)
  | .removeRule position =>
      match positionIn s.listed.length position with
      | some k => (.ok .done, s.eraseListed k)
      | none => (.error .noSuchPosition, s)
  | .copyRule id change =>
      s.withRule id fun i => (.ok .done, s.append ((s.rules.get i).change change))
  | .rebuild => (.ok .done, s.rebuild)

/-- Carries out calls in order, and gives their outcomes and the session after the
last. -/
def run (s : Session) : List Call → List (Except CommandFault Answer) × Session
  | [] => ([], s)
  | call :: calls =>
      let (outcome, next) := s.perform call.stack call.command
      let (outcomes, last) := next.run calls
      (outcome :: outcomes, last)

end Session

end DateRules
