import DateRules.Engine.Session

/-!
# Queries

Questions to the engine of a session. Every question may read expressions, and
so changes what the rule cells remember, also when it fails. All expressions that
one question reads are read on the same stack.
-/

namespace DateRules

/-- A computation that reads rule cells, may change what they remember, and may
fail. -/
abbrev Query (n : Nat) := ExceptT RuleFault (StateM (Vector RuleCell n))

namespace Query

variable {n : Nat}

/-- The expression of a rule, from what its cell remembers if possible. -/
def expression (stack : CallStack) (i : Fin n) : Query n (Option BoolExpr) :=
  ExceptT.mk fun rules =>
    let (result, cell) := (rules.get i).read stack
    (result, putCell rules i cell)

/-- Whether a rule applies on a date. -/
def appliesOn (stack : CallStack) (d : Date) (i : Fin n) : Query n Bool := do
  let e ← expression stack i
  holdsOn e d

/-- The rules as they are now. -/
def currentRules : Query n (Vector RuleCell n) := get

/-- The reports of the listed rules that apply on a day. -/
def matching (stack : CallStack) (strategy : MatchStrategy) (listed : List (Fin n))
    (d : Date) : Query n (List RuleMatch) := do
  let rules ← currentRules
  let order := askingOrder strategy (fun i => (rules.get i).rule.priority) listed
  let reported ← reportedWhere strategy (appliesOn stack d) order
  return reported.map fun i => (rules.get i).rule.reportOn d

/-- The days on which any listed rule applies, with the ids that are reported. -/
def agenda (stack : CallStack) (strategy : MatchStrategy) (listed : List (Fin n)) :
    List Date → Query n (List (Date × List String))
  | [] => pure []
  | d :: ds => do
      let reports ← matching stack strategy listed d
      let rest ← agenda stack strategy listed ds
      pure (if reports.isEmpty then rest else (d, reports.map RuleMatch.id) :: rest)

/-- The first day of a window on which a rule applies. -/
def next (stack : CallStack) (i : Fin n) (start : Date) (count : Int) :
    Query n (Option Date) := do
  let e ← expression stack i
  nextOf e start count

end Query

end DateRules
