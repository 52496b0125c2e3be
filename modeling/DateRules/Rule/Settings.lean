import DateRules.Data.Integer

/-!
# Settings

How many days a search covers when nothing else is asked, and which of the rules
that apply on a day are reported.
-/

namespace DateRules

/-- Which of the rules that apply on a day are reported. -/
inductive MatchStrategy where
  /-- The first one in the order of the rules. -/
  | firstMatch
  /-- The one of highest priority. -/
  | priority
  /-- All of them, by descending priority. -/
  | allMatch
deriving DecidableEq, Repr

namespace MatchStrategy

def name : MatchStrategy → String
  | firstMatch => "first_match"
  | priority => "priority"
  | allMatch => "all_match"

def all : List MatchStrategy := [firstMatch, priority, allMatch]

/-- The strategy with a given name. -/
def ofName? (name : String) : Option MatchStrategy :=
  all.find? fun strategy => strategy.name == name

end MatchStrategy

/-- The settings of a rule set. -/
structure Settings where
  /-- The number of days of a search for which no other number is given. -/
  windowDays : Int
  strategy : MatchStrategy
deriving DecidableEq, Repr

namespace Settings

def default : Settings := ⟨365, .allMatch⟩

/-- The names of the fields. -/
def fieldNames : List String := ["search_window_days", "match_strategy"]

/-- A number of days, which must be positive. -/
def checkWindowDays (v : Value) : Checked Int :=
  match v.toInteger with
  | .ok n => if 0 < n then .ok n else .fail .notPositive
  | .error issues => .error issues

/-- A strategy by its name. -/
def checkStrategy (v : Value) : Checked MatchStrategy :=
  let refused := Checked.fail (.notChoice (MatchStrategy.all.map MatchStrategy.name))
  match v with
  | .brokenText _ => .fail .notUnicode
  | other =>
      match other.toText with
      | .ok name =>
          match MatchStrategy.ofName? name with
          | some strategy => .ok strategy
          | none => refused
      | .error _ => refused

/-- The issue with a key that names no field. -/
def keyIssue? (key : Value) : Option Issue :=
  match key with
  | .text name => if name ∈ fieldNames then none else some ⟨[.field name], .unknownField⟩
  | other => some ⟨[.ofKey other], .nameNotText⟩

/-- Whether a value is a broken text. -/
def isBroken : Value → Bool
  | .brokenText _ => true
  | _ => false

/-- All keys must name fields. -/
def checkKeys (entries : List (Value × Value)) : Checked Unit :=
  match entries.filterMap fun entry => keyIssue? entry.1 with
  | [] => .ok ()
  | issues => .error issues

end Settings

/-- A field that may be absent and then has a default. -/
def optionalField {α : Type} (entries : List (Value × Value)) (name : String) (absent : α)
    (check : Value → Checked α) : Checked α :=
  match Value.field? entries name with
  | none => .ok absent
  | some v => (check v).under (.field name)

/-- A field that must be there. -/
def requiredField {α : Type} (entries : List (Value × Value)) (name : String)
    (check : Value → Checked α) : Checked α :=
  match Value.field? entries name with
  | none => Checked.under (.field name) (.fail .missing)
  | some v => (check v).under (.field name)

/-- The settings that a value describes. Issues with fields come before those
with keys that name no field. A broken text as a key is an issue that leaves
room for no other. -/
def Settings.ofValue (v : Value) : Checked Settings :=
  match v with
  | .map entries =>
      let windowDays := optionalField entries "search_window_days" Settings.default.windowDays
        Settings.checkWindowDays
      let strategy := optionalField entries "match_strategy" Settings.default.strategy
        Settings.checkStrategy
      if entries.any fun entry => Settings.isBroken entry.1 then .fail .notUnicode
      else
        match (windowDays.both strategy).both (Settings.checkKeys entries) with
        | .ok ((days, chosen), ()) => .ok ⟨days, chosen⟩
        | .error issues => .error issues
  | _ => .fail (.notRecord "EngineSettings")

end DateRules
