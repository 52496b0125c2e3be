import DateRules.Expr.Describe
import DateRules.Rule.Basic
import DateRules.Search

/-!
# Which rules apply

`matching stack strategy rules day` reports the rules that apply on a day. The
strategy decides the order in which the rules are asked and whether the first
one that applies ends the questions.

Asking a rule may fail, for a rule whose source is no expression has no truth
value. `firstWhere` and `allWhere` ask in order and stop at the first failure.
-/

namespace DateRules

/-- The ways in which asking a rule fails. -/
inductive RuleFault where
  /-- The rule has no expression. -/
  | sort (error : SortError)
  /-- The source of the rule has a literal that is too long. -/
  | overlong (literal : OverlongLiteral)
deriving DecidableEq, Repr

/-- Whether an expression that may be missing holds on a date. -/
def holdsOn (e : Option BoolExpr) (d : Date) : Except RuleFault Bool :=
  match e with
  | some e => .ok (e.holds d)
  | none => .error (.sort (.notBoolean none))

namespace Rule

/-- The rule's expression, where an overlong literal is a fault of the rule. -/
def readExpression (stack : CallStack) (r : Rule) : Except RuleFault (Option BoolExpr) :=
  match r.expression stack with
  | .ok e => .ok e
  | .error literal => .error (.overlong literal)

/-- Whether the rule applies on a date. -/
def appliesOn (stack : CallStack) (r : Rule) (d : Date) : Except RuleFault Bool :=
  match r.readExpression stack with
  | .ok e => holdsOn e d
  | .error fault => .error fault

end Rule

/-- A rule that applies on a day, as it is reported. -/
structure RuleMatch where
  id : String
  day : Date
  priority : Int
  description : Option String
deriving DecidableEq, Repr

/-- The report of a rule for a day. -/
def Rule.reportOn (r : Rule) (d : Date) : RuleMatch := ⟨r.id, d, r.priority, r.description⟩

section Asking

variable {m : Type → Type} [Monad m] {α : Type}

/-- The first item for which a question is answered with yes. -/
def firstWhere (ask : α → m Bool) : List α → m (Option α)
  | [] => pure none
  | a :: as => do
      if ← ask a then pure (some a) else firstWhere ask as

/-- All items for which a question is answered with yes. -/
def allWhere (ask : α → m Bool) : List α → m (List α)
  | [] => pure []
  | a :: as => do
      let yes ← ask a
      let rest ← allWhere ask as
      pure (if yes then a :: rest else rest)

/-- The items that a strategy reports, of those for which a question is
answered with yes. -/
def reportedWhere (strategy : MatchStrategy) (ask : α → m Bool) (items : List α) :
    m (List α) := do
  match strategy with
  | .allMatch => allWhere ask items
  | _ => return (← firstWhere ask items).toList

end Asking

/-- The items of a list by descending priority. Items of one priority keep
their order. -/
def byPriority {α : Type} (priority : α → Int) (items : List α) : List α :=
  items.mergeSort fun a b => priority b ≤ priority a

/-- The order in which a strategy asks. -/
def askingOrder {α : Type} (strategy : MatchStrategy) (priority : α → Int)
    (items : List α) : List α :=
  match strategy with
  | .firstMatch => items
  | _ => byPriority priority items

/-- The reports of the rules that apply on a day. -/
def matching (stack : CallStack) (strategy : MatchStrategy) (rules : List Rule) (d : Date) :
    Except RuleFault (List RuleMatch) := do
  let order := askingOrder strategy Rule.priority rules
  let reported ← reportedWhere strategy (·.appliesOn stack d) order
  return reported.map (·.reportOn d)

/-- The days on which any rule applies, with the ids that are reported. -/
def agendaOf (stack : CallStack) (strategy : MatchStrategy) (rules : List Rule) :
    List Date → Except RuleFault (List (Date × List String))
  | [] => pure []
  | d :: ds => do
      let reports ← matching stack strategy rules d
      let rest ← agendaOf stack strategy rules ds
      pure (if reports.isEmpty then rest else (d, reports.map RuleMatch.id) :: rest)

/-- The first day of a window on which an expression that may be missing holds. A
missing one is a fault unless the window is empty. -/
def nextOf (e : Option BoolExpr) (start : Date) (count : Int) :
    Except RuleFault (Option Date) :=
  match e with
  | some e => .ok (findNext start count e)
  | none => if count ≤ 0 then .ok none else .error (.sort (.notBoolean none))

end DateRules
