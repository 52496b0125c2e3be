import DateRules.Rule.Matching

/-!
# Sessions

A session holds rules and settings that change over time, a rule set that lists
some of these rules, and an engine built over the rule set. Rules and settings
are cells: the engine finds rules by the ids they had when it was built and uses
the settings that were attached then, but sees what happens to these cells
later. A cell is never removed.

Each rule cell keeps the last expression that was read from its source. It is
read again only when the source is another, so the answer may be that of an earlier
reading on another stack.
-/

namespace DateRules

/-- An expression that was read, and its source. -/
structure Memo where
  source : String
  expr : Option BoolExpr
deriving DecidableEq, Repr

/-- A rule and what was last read from its source. -/
structure RuleCell where
  rule : Rule
  memo : Option Memo
deriving DecidableEq, Repr

namespace RuleCell

/-- A rule that was not read yet. -/
def ofRule (r : Rule) : RuleCell := ⟨r, none⟩

/-- The expression of the rule and the cell that remembers it. A source that
cannot be read is not remembered. -/
def read (stack : CallStack) (cell : RuleCell) :
    Except RuleFault (Option BoolExpr) × RuleCell :=
  match cell.memo with
  | some memo => if memo.source = cell.rule.condition then (.ok memo.expr, cell) else readAnew
  | none => readAnew
where
  /-- The expression as the source gives it now. -/
  readAnew : Except RuleFault (Option BoolExpr) × RuleCell :=
    match cell.rule.readExpression stack with
    | .ok e => (.ok e, ⟨cell.rule, some ⟨cell.rule.condition, e⟩⟩)
    | .error fault => (.error fault, cell)

end RuleCell

/-- New values for some fields of a rule. -/
structure RuleChange where
  id : Option String
  condition : Option String
  priority : Option Int
  description : Option (Option String)
deriving DecidableEq, Repr

/-- A rule with the new values. -/
def Rule.change (r : Rule) (change : RuleChange) : Rule :=
  { id := change.id.getD r.id
    condition := change.condition.getD r.condition
    priority := change.priority.getD r.priority
    description := change.description.getD r.description }

/-- The cell of a copied rule. What was read is copied along. -/
def RuleCell.change (cell : RuleCell) (change : RuleChange) : RuleCell :=
  { cell with rule := cell.rule.change change }

/-- Rules, settings, a rule set and an engine over it. -/
structure Session where
  ruleCount : Nat
  settingsCount : Nat
  rules : Vector RuleCell ruleCount
  settings : Vector Settings settingsCount
  /-- The rules of the rule set, in order. -/
  listed : List (Fin ruleCount)
  /-- The settings of the rule set. -/
  attached : Fin settingsCount
  /-- The settings that the engine uses. -/
  held : Fin settingsCount
  /-- The rules that the engine finds, with the ids that they had. -/
  table : List (String × Fin ruleCount)

/-- The cells with another one in place of cell `i`. -/
def putCell {α : Type} {n : Nat} (cells : Vector α n) (i : Fin n) (cell : α) : Vector α n :=
  cells.set i cell i.isLt

/-- A cell that is put in is found there, and all others stay. -/
theorem get_putCell {α : Type} {n : Nat} (cells : Vector α n) (i j : Fin n) (cell : α) :
    (putCell cells i cell).get j = if i = j then cell else cells.get j := by
  change (cells.set i cell i.isLt)[j.val] = if i = j then cell else cells[j.val]
  simp only [Vector.getElem_set, Fin.ext_iff]

/-- The rules that an engine finds, each with its id. -/
def tableOf {n : Nat} (rules : Vector RuleCell n) (listed : List (Fin n)) :
    List (String × Fin n) :=
  listed.map fun i => ((rules.get i).rule.id, i)

/-- The last entry of a table with a given id. -/
def lookUp {n : Nat} (table : List (String × Fin n)) (id : String) : Option (Fin n) :=
  (table.reverse.find? fun entry => entry.1 == id).map (·.2)

namespace Session

/-- A session over a rule set, with an engine built over it. -/
def start (ruleSet : RuleSet) : Session :=
  let rules := (ruleSet.rules.map RuleCell.ofRule).toArray.toVector
  let listed := List.finRange (ruleSet.rules.map RuleCell.ofRule).toArray.size
  { ruleCount := (ruleSet.rules.map RuleCell.ofRule).toArray.size
    settingsCount := 1
    rules := rules
    settings := #v[ruleSet.settings]
    listed := listed
    attached := 0
    held := 0
    table := tableOf rules listed }

/-- The same session with an engine built anew. -/
def rebuild (s : Session) : Session :=
  { s with held := s.attached, table := tableOf s.rules s.listed }

/-- The rule set as it is now. -/
def ruleSet (s : Session) : RuleSet :=
  ⟨s.settings.get s.attached, s.listed.map fun i => (s.rules.get i).rule⟩

/-- The settings that the engine uses, as they are now. -/
def heldSettings (s : Session) : Settings := s.settings.get s.held

/-- The rule that the engine finds under an id. -/
def find? (s : Session) (id : String) : Option (Fin s.ruleCount) := lookUp s.table id

/-- Changes the rule of a cell and keeps what was read from it. -/
def updateRule (s : Session) (i : Fin s.ruleCount) (f : Rule → Rule) : Session :=
  { s with rules := putCell s.rules i { s.rules.get i with rule := f (s.rules.get i).rule } }

/-- Changes the settings of the rule set in place. -/
def updateSettings (s : Session) (f : Settings → Settings) : Session :=
  { s with settings := putCell s.settings s.attached (f (s.settings.get s.attached)) }

/-- Attaches new settings to the rule set. The engine keeps those it has. -/
def attachSettings (s : Session) (settings : Settings) : Session :=
  { s with
    settingsCount := s.settingsCount + 1
    settings := s.settings.push settings
    attached := Fin.last _
    held := s.held.castSucc }

/-- Lists a new rule at the end of the rule set. The engine does not find it. -/
def append (s : Session) (cell : RuleCell) : Session :=
  { s with
    ruleCount := s.ruleCount + 1
    rules := s.rules.push cell
    listed := s.listed.map Fin.castSucc ++ [Fin.last _]
    table := s.table.map fun entry => (entry.1, entry.2.castSucc) }

/-- Takes a position out of the list of the rule set. The cell stays. -/
def eraseListed (s : Session) (position : Nat) : Session :=
  { s with listed := s.listed.eraseIdx position }

end Session

end DateRules
