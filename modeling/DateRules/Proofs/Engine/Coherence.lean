import DateRules.Engine.Query
import DateRules.Proofs.Parser.Room
import DateRules.Proofs.Rule.Asking

/-!
# What rule cells remember

The callers that read a rule may have different stacks left. A cell is `Coherent` for some
callers if the expression that it remembers is what its source is parsed to for each of them,
and if they read the source of its rule alike. It may remember another source than that of its
rule, since a changed rule is read anew.

`Answers callers q f` says that a query gives, on coherent cells, the answer `f` that depends
on the rules alone, and that it leaves the rules as they are and the cells coherent,
also when it fails. `Answers.bind` carries this over to queries that are made up of
others, and there is one lemma for each query: `answers_expression`,
`answers_appliesOn`, `answers_matching`, `answers_agenda` and `answers_next`.
-/

namespace DateRules

theorem Rule.parse?_of_readExpression {stack : CallStack} {r : Rule} {e : Option BoolExpr}
    (h : r.readExpression stack = .ok e) : BoolExpr.parse? stack r.condition = .ok e := by
  unfold readExpression expression at h
  split at h
  · next hparse =>
      cases h
      exact hparse
  · cases h

namespace RuleCell

/-- What the cell remembers is what the source that it remembers is parsed to, whoever of the
callers reads it, and they read the source of the rule alike. -/
structure Coherent (callers : Set CallStack) (cell : RuleCell) : Prop where
  memo_eq : ∀ stack ∈ callers, ∀ memo ∈ cell.memo,
    BoolExpr.parse? stack memo.source = .ok memo.expr
  agree : AgreeOn callers cell.rule.condition

variable {callers : Set CallStack} {stack : CallStack} {cell : RuleCell}

theorem coherent_ofRule {r : Rule} (h : AgreeOn callers r.condition) :
    (ofRule r).Coherent callers := by
  refine ⟨fun stack _ memo hmemo => ?_, h⟩
  cases hmemo

theorem Coherent.withRule (h : cell.Coherent callers) {r : Rule}
    (hagree : AgreeOn callers r.condition) : Coherent callers { cell with rule := r } :=
  ⟨h.memo_eq, hagree⟩

/-- The source of a copied rule is the old one or a new one. -/
theorem Coherent.change (h : cell.Coherent callers) {change : RuleChange}
    (hchange : ∀ condition ∈ change.condition, AgreeOn callers condition) :
    (cell.change change).Coherent callers := by
  refine h.withRule ?_
  rw [Rule.change]
  cases hcondition : change.condition with
  | none => exact h.agree
  | some condition => exact hchange condition hcondition

theorem read.readAnew_spec (hstack : stack ∈ callers) (h : cell.Coherent callers) :
    (readAnew stack cell).1 = cell.rule.readExpression stack ∧
      (readAnew stack cell).2.rule = cell.rule ∧ (readAnew stack cell).2.Coherent callers := by
  rw [readAnew]
  cases hread : cell.rule.readExpression stack with
  | ok e =>
      refine ⟨rfl, rfl, ?_, h.agree⟩
      rintro other hother memo ⟨⟩
      rw [h.agree other hother stack hstack]
      exact Rule.parse?_of_readExpression hread
  -- A read that fails leaves the memory of an earlier source.
  | error fault => exact ⟨rfl, rfl, h⟩

/-- Reading a coherent cell gives the expression of its rule. -/
theorem read_spec (hstack : stack ∈ callers) (h : cell.Coherent callers) :
    (cell.read stack).1 = cell.rule.readExpression stack ∧
      (cell.read stack).2.rule = cell.rule ∧ (cell.read stack).2.Coherent callers := by
  rw [read]
  split
  · next memo hmemo =>
      split
      · next hsource =>
          have hparse := h.memo_eq stack hstack memo hmemo
          rw [hsource] at hparse
          refine ⟨?_, rfl, h⟩
          simp only [Rule.readExpression, Rule.expression, hparse]
      · exact read.readAnew_spec hstack h
  · exact read.readAnew_spec hstack h

end RuleCell

section Cells

variable {callers : Set CallStack} {n : Nat}

/-- The rules of the cells. -/
def rulesOf (cells : Vector RuleCell n) : Vector Rule n := cells.map RuleCell.rule

theorem get_rulesOf (cells : Vector RuleCell n) (i : Fin n) :
    (rulesOf cells).get i = (cells.get i).rule := by
  change (cells.map RuleCell.rule)[i.val] = (cells[i.val]).rule
  rw [Vector.getElem_map]

/-- All cells are coherent. -/
def CoherentCells (callers : Set CallStack) (cells : Vector RuleCell n) : Prop :=
  ∀ i, (cells.get i).Coherent callers

theorem CoherentCells.putCell {cells : Vector RuleCell n} (h : CoherentCells callers cells)
    (i : Fin n) {cell : RuleCell} (hcell : cell.Coherent callers) :
    CoherentCells callers (putCell cells i cell) := by
  intro j
  rw [get_putCell]
  split
  · exact hcell
  · exact h j

theorem ext_get {α : Type} {u v : Vector α n} (h : ∀ i, u.get i = v.get i) : u = v := by
  apply Vector.ext
  intro i hi
  exact h ⟨i, hi⟩

theorem rulesOf_putCell (cells : Vector RuleCell n) (i : Fin n) (cell : RuleCell) :
    rulesOf (putCell cells i cell) = putCell (rulesOf cells) i cell.rule := by
  apply ext_get
  intro j
  rw [get_rulesOf, get_putCell, get_putCell, get_rulesOf]
  split <;> rfl

theorem putCell_get_self {α : Type} (cells : Vector α n) (i : Fin n) :
    putCell cells i (cells.get i) = cells := by
  apply ext_get
  intro j
  rw [get_putCell]
  split
  · next h => rw [h]
  · rfl

theorem coherentCells_push {cells : Vector RuleCell n} {cell : RuleCell}
    (h : CoherentCells callers cells) (hcell : cell.Coherent callers) :
    CoherentCells callers (cells.push cell) := by
  intro i
  change ((cells.push cell)[i.val]).Coherent callers
  rw [Vector.getElem_push]
  split
  · next hi => exact h ⟨i, hi⟩
  · exact hcell

end Cells

namespace Query

variable {callers : Set CallStack} {stack : CallStack} {n : Nat} {α β : Type}

/-- A query gives an answer that depends on the rules alone, and leaves them as they
are. -/
structure Answers (callers : Set CallStack) (q : Query n α)
    (f : Vector Rule n → Except RuleFault α) : Prop where
  result : ∀ {cells}, CoherentCells callers cells → (q.run cells).1 = f (rulesOf cells)
  rules : ∀ {cells}, CoherentCells callers cells → rulesOf (q.run cells).2 = rulesOf cells
  coherent : ∀ {cells}, CoherentCells callers cells → CoherentCells callers (q.run cells).2

theorem Answers.congr {q : Query n α} {f g : Vector Rule n → Except RuleFault α}
    (h : Answers callers q f) (heq : ∀ rules, f rules = g rules) : Answers callers q g := by
  rwa [← funext heq]

theorem run_bind (q : Query n α) (k : α → Query n β) (cells : Vector RuleCell n) :
    (q >>= k).run cells =
      match q.run cells with
      | (.ok a, after) => (k a).run after
      | (.error fault, after) => (.error fault, after) := by
  change (ExceptT.bindCont k (q.run cells).1).run (q.run cells).2 = _
  rcases q.run cells with ⟨a | fault, after⟩ <;> rfl

theorem run_expression (stack : CallStack) (i : Fin n) (cells : Vector RuleCell n) :
    (expression stack i).run cells =
      (((cells.get i).read stack).1, DateRules.putCell cells i ((cells.get i).read stack).2) :=
  rfl

theorem answers_pure (a : α) : Answers callers (pure a : Query n α) fun _ => .ok a where
  result := fun _ => rfl
  rules := fun _ => rfl
  coherent := fun h => h

theorem answers_lift (x : Except RuleFault α) :
    Answers callers (liftM x : Query n α) fun _ => x where
  result := fun _ => by cases x <;> rfl
  rules := fun _ => by cases x <;> rfl
  coherent := fun h => by cases x <;> exact h

/-- A query that goes on with the answer of another one. -/
theorem Answers.bind {q : Query n α} {k : α → Query n β}
    {f : Vector Rule n → Except RuleFault α} {g : α → Vector Rule n → Except RuleFault β}
    (hq : Answers callers q f) (hk : ∀ a, Answers callers (k a) (g a)) :
    Answers callers (q >>= k) fun rules => f rules >>= fun a => g a rules := by
  have hrun : ∀ {cells}, CoherentCells callers cells →
      ((q >>= k).run cells).1 = (f (rulesOf cells) >>= fun a => g a (rulesOf cells)) ∧
        rulesOf ((q >>= k).run cells).2 = rulesOf cells ∧
        CoherentCells callers ((q >>= k).run cells).2 := by
    intro cells h
    have hresult := hq.result h
    have hrules := hq.rules h
    have hcoherent := hq.coherent h
    rw [run_bind, ← hresult]
    generalize q.run cells = outcome at hresult hrules hcoherent
    obtain ⟨result, after⟩ := outcome
    cases result with
    | error fault => exact ⟨rfl, hrules, hcoherent⟩
    | ok a =>
        rw [← hrules]
        exact ⟨(hk a).result hcoherent, (hk a).rules hcoherent, (hk a).coherent hcoherent⟩
  exact ⟨fun h => (hrun h).1, fun h => (hrun h).2.1, fun h => (hrun h).2.2⟩

theorem Answers.map {q : Query n α} {f : Vector Rule n → Except RuleFault α}
    (hq : Answers callers q f) (g : α → β) :
    Answers callers (g <$> q) fun rules => (f rules).map g := by
  have hbind := hq.bind fun a => answers_pure (g a)
  rw [← bind_pure_comp]
  refine hbind.congr fun rules => ?_
  cases f rules <;> rfl

theorem answers_expression (hstack : stack ∈ callers) (i : Fin n) :
    Answers callers (expression stack i) fun rules => (rules.get i).readExpression stack := by
  refine ⟨?_, ?_, ?_⟩
  · intro cells h
    rw [get_rulesOf]
    exact (RuleCell.read_spec hstack (h i)).1
  · intro cells h
    rw [run_expression, rulesOf_putCell, (RuleCell.read_spec hstack (h i)).2.1, ← get_rulesOf,
      putCell_get_self]
  · intro cells h
    exact h.putCell i (RuleCell.read_spec hstack (h i)).2.2

theorem answers_appliesOn (hstack : stack ∈ callers) (d : Date) (i : Fin n) :
    Answers callers (appliesOn stack d i) fun rules => (rules.get i).appliesOn stack d := by
  have hbind := (answers_expression hstack i).bind fun e => answers_lift (holdsOn e d)
  refine hbind.congr fun rules => ?_
  rw [Rule.appliesOn]
  cases (rules.get i).readExpression stack <;> rfl

section Asking

variable {γ : Type} {ask : γ → Query n Bool} {f : γ → Vector Rule n → Except RuleFault Bool}

theorem answers_firstWhere (h : ∀ a, Answers callers (ask a) (f a)) (items : List γ) :
    Answers callers (firstWhere ask items) fun rules => firstWhere (f · rules) items := by
  induction items with
  | nil => exact answers_pure none
  | cons a items ih =>
      have hnext : ∀ yes, Answers callers
          (if yes = true then pure (some a) else firstWhere ask items)
          fun rules => if yes = true then pure (some a) else firstWhere (f · rules) items := by
        intro yes
        cases yes with
        | false => exact ih
        | true => exact answers_pure (some a)
      exact (h a).bind hnext

theorem answers_allWhere (h : ∀ a, Answers callers (ask a) (f a)) (items : List γ) :
    Answers callers (allWhere ask items) fun rules => allWhere (f · rules) items := by
  induction items with
  | nil => exact answers_pure []
  | cons a items ih => exact (h a).bind fun yes => ih.bind fun rest => answers_pure _

theorem answers_reportedWhere (strategy : MatchStrategy) (h : ∀ a, Answers callers (ask a) (f a))
    (items : List γ) :
    Answers callers (reportedWhere strategy ask items)
      fun rules => reportedWhere strategy (f · rules) items := by
  have hfirst := (answers_firstWhere h items).bind fun found => answers_pure found.toList
  cases strategy with
  | allMatch => exact answers_allWhere h items
  | firstMatch => exact hfirst
  | priority => exact hfirst

end Asking

/-- A query that looks at the rules goes on with what they are. -/
theorem answers_currentRules_bind {k : Vector RuleCell n → Query n α}
    {g : Vector Rule n → Vector Rule n → Except RuleFault α}
    (h : ∀ cells, Answers callers (k cells) (g (rulesOf cells))) :
    Answers callers (currentRules >>= k) fun rules => g rules rules where
  result := fun {cells} hcells => (h cells).result hcells
  rules := fun {cells} hcells => (h cells).rules hcells
  coherent := fun {cells} hcells => (h cells).coherent hcells

theorem answers_matching (hstack : stack ∈ callers) (strategy : MatchStrategy)
    (listed : List (Fin n)) (d : Date) :
    Answers callers (matching stack strategy listed d)
      fun rules => DateRules.matching stack strategy (listed.map rules.get) d := by
  let g : Vector Rule n → Vector Rule n → Except RuleFault (List RuleMatch) := fun seen rules =>
    reportedWhere strategy (fun i => (rules.get i).appliesOn stack d)
      (askingOrder strategy (fun i => (seen.get i).priority) listed) >>= fun reported =>
        .ok (reported.map fun i => (seen.get i).reportOn d)
  have hqueries : Answers callers (matching stack strategy listed d)
      fun rules => g rules rules := by
    refine answers_currentRules_bind fun cells => ?_
    have hreported := answers_reportedWhere strategy (answers_appliesOn hstack d)
      (askingOrder strategy (fun i => (cells.get i).rule.priority) listed)
    have hbind := hreported.bind fun reported =>
      answers_pure (reported.map fun i => (cells.get i).rule.reportOn d)
    refine hbind.congr fun rules => ?_
    simp only [g, get_rulesOf]
  refine hqueries.congr fun rules => ?_
  rw [matching_map]
  rfl

theorem answers_agenda (hstack : stack ∈ callers) (strategy : MatchStrategy)
    (listed : List (Fin n)) (days : List Date) :
    Answers callers (agenda stack strategy listed days)
      fun rules => agendaOf stack strategy (listed.map rules.get) days := by
  induction days with
  | nil => exact answers_pure []
  | cons d days ih =>
      exact (answers_matching hstack strategy listed d).bind fun reports =>
        ih.bind fun rest => answers_pure _

theorem answers_next (hstack : stack ∈ callers) (i : Fin n) (start : Date) (count : Int) :
    Answers callers (next stack i start count)
      fun rules => (rules.get i).readExpression stack >>= fun e => nextOf e start count :=
  (answers_expression hstack i).bind fun e => answers_lift (nextOf e start count)

end Query

end DateRules
