import DateRules.Data.Expression
import DateRules.Rule.Id
import DateRules.Rule.Settings

/-!
# Rules

A rule names a boolean date expression. `Rule.ofValue` reads a rule from data
and `RuleSet.ofValue` a list of rules with their settings; both report all that
is wrong. A rule set that is read has no two rules with one id. The conditions are
read on the stack of the call, as later the expressions are on those of other calls.
-/

namespace DateRules

/-- A named date expression, in its source form. -/
structure Rule where
  id : String
  condition : String
  priority : Int
  description : Option String
deriving DecidableEq, Repr

namespace Rule

/-- The issue with an id that is not in kebab case. -/
def idIssue (codes : Text.Codes) : IssueKind :=
  .invalid ("Rule id must be kebab-case: " ++ Text.quotedCodes codes)

/-- An id, which must be in kebab case. -/
def checkId (v : Value) : Checked String :=
  match v with
  | .brokenText codes => .fail (idIssue codes)
  | other =>
      match other.toText with
      | .ok id =>
          if isRuleId id.toList then .ok id else .fail (idIssue (Text.Codes.ofString id))
      | .error issues => .error issues

/-- The issue with a source that is no boolean expression. -/
def conditionIssue (codes : Text.Codes) (diagnosis : Diagnosis) : IssueKind :=
  .invalid
    ("Invalid date expression " ++ Text.quotedCodes codes ++ ": " ++ diagnosis.report)

/-- The source of a boolean expression. -/
def checkCondition (stack : CallStack) (v : Value) : Checked String :=
  match v with
  | .brokenText codes => .fail (conditionIssue codes (Value.diagnoseBroken codes))
  | other =>
      match other.toText with
      | .ok source =>
          match BoolExpr.diagnose stack source with
          | .ok none => .ok source
          | .ok (some diagnosis) =>
              .fail (conditionIssue (Text.Codes.ofString source) diagnosis)
          | .error literal => .fail (.invalid literal.message)
      | .error issues => .error issues

/-- A description, which may be null. -/
def checkDescription (v : Value) : Checked (Option String) :=
  match v with
  | .null => .ok none
  | other =>
      match other.toText with
      | .ok text => .ok (some text)
      | .error issues => .error issues

/-- The rule that a value describes. Keys that name no field are ignored. -/
def ofValue (stack : CallStack) (v : Value) : Checked Rule :=
  match v with
  | .map entries =>
      let id := requiredField entries "id" checkId
      let condition := requiredField entries "when" (checkCondition stack)
      let priority := optionalField entries "priority" 0 Value.toInteger
      let description := optionalField entries "description" none checkDescription
      match ((id.both condition).both priority).both description with
      | .ok (((id, condition), priority), description) =>
          .ok ⟨id, condition, priority, description⟩
      | .error issues => .error issues
  | _ => .fail (.notRecord "DateRule")

/-- The tree of the rule's expression, if it has one. -/
def expression (stack : CallStack) (r : Rule) : Except OverlongLiteral (Option BoolExpr) :=
  BoolExpr.parse? stack r.condition

end Rule

/-- Rules and their settings. -/
structure RuleSet where
  settings : Settings
  rules : List Rule
deriving DecidableEq, Repr

namespace RuleSet

def empty : RuleSet := ⟨Settings.default, []⟩

/-- The first id that was there before, where `seen` holds the ids before the
list. -/
def repeatedId? (seen : List String) : List Rule → Option String
  | [] => none
  | r :: rs => if r.id ∈ seen then some r.id else repeatedId? (r.id :: seen) rs

/-- The checks of the items of a list, each placed at its position. -/
def checkItems (stack : CallStack) (position : Nat) : List Value → List (Checked Rule)
  | [] => []
  | v :: vs =>
      (Rule.ofValue stack v).under (.index position) :: checkItems stack (position + 1) vs

/-- The items of a value that is read as a list. Among the values there are no tuples,
frozen sets, queues or generators, which would be read so too. -/
def itemsOf? : Value → Option (List Value)
  | .list items => some items
  | .set members => some members
  | _ => none

/-- A list of rules. Ids are compared only if every rule is right by itself. -/
def checkRules (stack : CallStack) (v : Value) : Checked (List Rule) :=
  match itemsOf? v with
  | some items =>
      match Checked.all (checkItems stack 0 items) with
      | .ok rules =>
          match repeatedId? [] rules with
          | none => .ok rules
          | some id => .fail (.invalid ("Duplicate rule id: " ++ id))
      | .error issues => .error issues
  | none => .fail .notList

/-- The rule set that a value describes. Keys that name no field are ignored. -/
def ofValue (stack : CallStack) (v : Value) : Checked RuleSet :=
  match v with
  | .map entries =>
      let settings := optionalField entries "settings" Settings.default Settings.ofValue
      let rules := optionalField entries "rules" [] (checkRules stack)
      match settings.both rules with
      | .ok (settings, rules) => .ok ⟨settings, rules⟩
      | .error issues => .error issues
  | _ => .fail (.notRecord "RuleSet")

end RuleSet

end DateRules
