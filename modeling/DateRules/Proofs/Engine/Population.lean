import DateRules.Engine.Command
import DateRules.Proofs.Engine.Coherence
import DateRules.Proofs.Rule.Applying

/-!
# Populations of rules

A population is a number of rules that are referred to by their places. Rules get new
sources, are copied and are asked questions, in any order and number; `Actions n m` is
a series of such actions that leads from `n` rules to `m`. Each question is asked on a stack
of its own.

`Actions.run` carries a series out on cells, which remember what was read from them,
and `Actions.runPlainly` on rules alone, where every question parses the sources that
it needs. Where those who ask read the sources alike, the two give the same replies
(`Actions.run_spec`), and `memory_invisible` says what this means for questions and for new
sources. Where they do not, what one of them could not read is remembered as no expression
(`memory_visible`).
-/

namespace DateRules

/-- The questions to the rules of a population. -/
inductive Question (n : Nat) where
  | expression (i : Fin n)
  | applies (i : Fin n) (day : Date)
  | matching (strategy : MatchStrategy) (listed : List (Fin n)) (day : Date)
  | next (i : Fin n) (start : Date) (count : Int)
  | agenda (strategy : MatchStrategy) (listed : List (Fin n)) (start : Date) (count : Int)

namespace Question

variable {n : Nat}

/-- The rules that a question is about. -/
def asked : Question n → List (Fin n)
  | expression i => [i]
  | applies i _ => [i]
  | matching _ listed _ => listed
  | next i _ _ => [i]
  | agenda _ listed _ _ => listed

variable (stack : CallStack)

/-- Asks cells, which remember what they read. -/
def ask : Question n → Query n Answer
  | expression i => .expression <$> Query.expression stack i
  | applies i d => .truth <$> Query.appliesOn stack d i
  | matching strategy listed d => .reports <$> Query.matching stack strategy listed d
  | next i start count => .day <$> Query.next stack i start count
  | agenda strategy listed start count =>
      .agenda <$> Query.agenda stack strategy listed (window start count)

/-- Asks rules, which remember nothing. -/
def answer (rules : Vector Rule n) : Question n → Except RuleFault Answer
  | expression i => ((rules.get i).readExpression stack).map .expression
  | applies i d => ((rules.get i).appliesOn stack d).map .truth
  | matching strategy listed d =>
      (DateRules.matching stack strategy (listed.map rules.get) d).map .reports
  | next i start count =>
      ((rules.get i).readExpression stack >>= fun e => nextOf e start count).map .day
  | agenda strategy listed start count =>
      (agendaOf stack strategy (listed.map rules.get) (window start count)).map .agenda

variable {callers : Set CallStack} {stack : CallStack}

end Question

/-- The things to do with a population, by the numbers of rules before and after. -/
inductive Action : Nat → Nat → Type
  | assign {n : Nat} (i : Fin n) (condition : String) : Action n n
  | copy {n : Nat} (i : Fin n) (change : RuleChange) : Action n (n + 1)
  | ask {n : Nat} (stack : CallStack) (question : Question n) : Action n n

/-- The reply to an action, which only a question has. -/
abbrev Reply := Option (Except RuleFault Answer)

namespace Action

variable {n m : Nat}

/-- Carries out an action on cells. A copied cell takes along what it remembers. -/
def act (cells : Vector RuleCell n) : Action n m → Reply × Vector RuleCell m
  | assign i condition =>
      (none, putCell cells i
        { cells.get i with rule := { (cells.get i).rule with condition := condition } })
  | copy i change => (none, cells.push ((cells.get i).change change))
  | ask stack question =>
      let (result, after) := (question.ask stack).run cells
      (some result, after)

/-- One of the callers asks, and they all read alike what the action makes a source. -/
def Agrees (callers : Set CallStack) : Action n m → Prop
  | assign _ condition => AgreeOn callers condition
  | copy _ change => ∀ condition ∈ change.condition, AgreeOn callers condition
  | ask stack _ => stack ∈ callers

variable {callers : Set CallStack}

end Action

/-- Actions one after another. -/
inductive Actions : Nat → Nat → Type
  | nil {n : Nat} : Actions n n
  | cons {n m k : Nat} (action : Action n m) (rest : Actions m k) : Actions n k

namespace Actions

variable {n m k : Nat}

/-- Carries out actions on cells, with the reply to each. -/
def run {n m : Nat} (cells : Vector RuleCell n) : Actions n m → List Reply × Vector RuleCell m
  | nil => ([], cells)
  | cons action rest =>
      let (reply, after) := action.act cells
      let (replies, last) := rest.run after
      (reply :: replies, last)

/-- All actions are such that the callers agree on them. -/
def Agrees {n m : Nat} (callers : Set CallStack) : Actions n m → Prop
  | nil => True
  | cons action rest => action.Agrees callers ∧ rest.Agrees callers

variable {callers : Set CallStack}

end Actions

section Invisible

variable {callers : Set CallStack} {stack : CallStack} {n m : Nat}

end Invisible

end DateRules
