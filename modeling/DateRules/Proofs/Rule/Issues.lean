import Mathlib.Data.List.Nodup
import Mathlib.Order.Bounds.Defs
import DateRules.Engine.Session
import DateRules.Proofs.Parser.Room
import DateRules.Proofs.Rule.Validation

/-!
# What is reported about rules

Checks side by side report all that any of them reports, in order
(`Checked.issues_both`, `Checked.issues_all`). So a list of rules is refused
with the issues of its items, each placed at the position of the item. Only where no item
has any are the ids compared: then the first position whose id stood before is reported
(`RuleSet.repeatedId?_eq_some`).

`ruleSet_from_items` states this for whole rule sets, together with the acceptance of
those that have no issue.
-/

namespace DateRules

namespace Checked

variable {α β : Type}

/-- All issues of a check. -/
def issues : Checked α → List Issue
  | .ok _ => []
  | .error found => found

theorem eq_error_iff {x : Checked α} {found : List Issue} :
    x = .error found ↔ Fails x ∧ found = x.issues := by
  cases x with
  | ok a => simp
  | error other => simp [issues, eq_comm]

theorem issues_under (place : Place) (x : Checked α) :
    (x.under place).issues = x.issues.map (Issue.under place) := by
  cases x <;> rfl

theorem fails_under_iff {place : Place} {x : Checked α} : Fails (x.under place) ↔ Fails x := by
  cases x <;> simp [under]

theorem issues_both (x : Checked α) (y : Checked β) :
    (x.both y).issues = x.issues ++ y.issues := by
  cases x <;> cases y <;> simp [both, issues]

theorem fails_both_iff {x : Checked α} {y : Checked β} :
    Fails (x.both y) ↔ Fails x ∨ Fails y := by
  cases x <;> cases y <;> simp [both]

theorem all_cons (check : Checked α) (checks : List (Checked α)) :
    all (check :: checks) = (check.both (all checks)).map fun found => found.1 :: found.2 := by
  rw [all]
  cases check.both (all checks) <;> rfl

theorem issues_all (checks : List (Checked α)) : issues (all checks) = checks.flatMap issues := by
  induction checks with
  | nil => rfl
  | cons check checks ih =>
      rw [List.flatMap_cons, ← ih, ← issues_both, all_cons]
      cases check.both (all checks) <;> rfl

theorem fails_all_iff {checks : List (Checked α)} :
    Fails (all checks) ↔ ∃ check ∈ checks, Fails check := by
  induction checks with
  | nil => simp [all]
  | cons check checks ih =>
      have hmap := fails_map_iff (x := check.both (all checks)) fun found => found.1 :: found.2
      rw [all_cons]
      simp only [List.mem_cons, exists_eq_or_imp, ← ih, ← fails_both_iff]
      exact hmap

/-- What is reported of a part of some data is located there. -/
theorem location_of_under {place : Place} {x : Checked α} {issue : Issue}
    (h : issue ∈ (x.under place).issues) : issue.location.head? = some place := by
  rw [issues_under] at h
  obtain ⟨inner, -, rfl⟩ := List.mem_map.mp h
  rfl

end Checked

section Fields

variable {α : Type} {entries : List (Value × Value)} {name : String} {check : Value → Checked α}
  {absent : α} {issue : Issue}

theorem location_of_requiredField
    (h : issue ∈ Checked.issues (requiredField entries name check)) :
    issue.location.head? = some (.field name) := by
  rw [requiredField] at h
  split at h <;> exact Checked.location_of_under h

theorem location_of_optionalField
    (h : issue ∈ Checked.issues (optionalField entries name absent check)) :
    issue.location.head? = some (.field name) := by
  rw [optionalField] at h
  split at h
  · cases h
  · exact Checked.location_of_under h

end Fields

/-- The positions of a list whose item stood at an earlier position already. -/
def repeats {α : Type} (items : List α) : Set Nat :=
  {j | ∃ a, items[j]? = some a ∧ a ∈ items.take j}

/-- The item after a part without repetitions is the first repetition if it stands in that
part. -/
theorem isLeast_repeats {α : Type} {before after : List α} {a : α} (hdistinct : before.Nodup)
    (hmem : a ∈ before) : IsLeast (repeats (before ++ a :: after)) before.length := by
  refine ⟨⟨a, ?_, ?_⟩, ?_⟩
  · rw [List.getElem?_append_right (Nat.le_refl _), Nat.sub_self, List.getElem?_cons_zero]
  · rw [List.take_left]
    exact hmem
  · rintro j ⟨b, hb, hearlier⟩
    refine Nat.le_of_not_lt fun hlt => ?_
    rw [List.getElem?_append_left hlt] at hb
    rw [List.take_append_of_le_length (Nat.le_of_lt hlt)] at hearlier
    -- An item stands in a list without repetitions at one position only.
    obtain ⟨i, hi, hget⟩ := List.mem_take_iff_getElem.mp hearlier
    obtain ⟨hj, hgetj⟩ := List.getElem?_eq_some_iff.mp hb
    have hsame : i = j := hdistinct.getElem_inj_iff.mp (hget.trans hgetj.symm)
    omega

namespace RuleSet

variable {stack : CallStack}

theorem checkItems_eq_map (position : Nat) (items : List Value) :
    checkItems stack position items =
      (items.zipIdx position).map fun entry =>
        (Rule.ofValue stack entry.1).under (.index (entry.2 : Nat)) := by
  induction items generalizing position with
  | nil => rfl
  | cons v items ih => rw [checkItems, ih, List.zipIdx_cons, List.map_cons]

/-- The issues of the items of a list, each placed at the position of its item. -/
def itemIssues (stack : CallStack) (items : List Value) : List Issue :=
  items.zipIdx.flatMap fun entry =>
    (Checked.issues (Rule.ofValue stack entry.1)).map (Issue.under (.index (entry.2 : Nat)))

theorem exists_fails_checkItems_iff {position : Nat} {items : List Value} :
    (∃ check ∈ checkItems stack position items, Fails check) ↔
      ∃ v ∈ items, Fails (Rule.ofValue stack v) := by
  induction items generalizing position with
  | nil => simp [checkItems]
  | cons v items ih =>
      simp only [checkItems, List.mem_cons, exists_eq_or_imp, Checked.fails_under_iff, ih]

theorem itemsOf?_eq_some_iff {data : Value} {items : List Value} :
    itemsOf? data = some items ↔ data = .list items ∨ data = .set items := by
  cases data <;> simp [itemsOf?]

/-- The rules are given as the items of a list or of a set. -/
def GivesItems (entries : List (Value × Value)) (items : List Value) : Prop :=
  ∃ data, Value.field? entries "rules" = some data ∧ (data = .list items ∨ data = .set items)

theorem givesItems_iff {entries : List (Value × Value)} {items : List Value} :
    GivesItems entries items ↔
      ∃ data, Value.field? entries "rules" = some data ∧ itemsOf? data = some items := by
  simp only [GivesItems, itemsOf?_eq_some_iff]

theorem repeatedId?_eq_some {seen : List String} {rules : List Rule} {id : String}
    (h : repeatedId? seen rules = some id) :
    ∃ before r after, rules = before ++ r :: after ∧ r.id = id ∧
      repeatedId? seen before = none ∧ (r.id ∈ seen ∨ r.id ∈ before.map Rule.id) := by
  induction rules generalizing seen with
  | nil => cases h
  | cons r rules ih =>
      rw [repeatedId?] at h
      split at h
      · next hseen => exact ⟨[], r, rules, rfl, Option.some.inj h, rfl, .inl hseen⟩
      · next hfresh =>
          obtain ⟨before, other, after, rfl, hid, hnone, hmem⟩ := ih h
          refine ⟨r :: before, other, after, rfl, hid, ?_, ?_⟩
          · rw [repeatedId?, if_neg hfresh, hnone]
          · rw [List.map_cons, List.mem_cons]
            rw [List.mem_cons] at hmem
            tauto

/-- An id that is reported is the one at the first position whose id stood before. -/
theorem isLeast_of_repeatedId? {rules : List Rule} {id : String}
    (h : repeatedId? [] rules = some id) :
    ∃ j, IsLeast (repeats (rules.map Rule.id)) j ∧ (rules.map Rule.id)[j]? = some id := by
  obtain ⟨before, r, after, rfl, rfl, hnone, hmem⟩ := repeatedId?_eq_some h
  have hdistinct := (repeatedId?_eq_none_iff.mp hnone).2
  have hearlier := hmem.resolve_left List.not_mem_nil
  refine ⟨(before.map Rule.id).length, ?_, ?_⟩
  · rw [List.map_append, List.map_cons]
    exact isLeast_repeats hdistinct hearlier
  · rw [List.map_append, List.map_cons, List.getElem?_append_right (Nat.le_refl _), Nat.sub_self,
      List.getElem?_cons_zero]

section Refused

variable {data : Value} {items : List Value} {rules : List Rule}

theorem checkRules_of_fails (hitems : itemsOf? data = some items)
    (h : ∃ v ∈ items, Fails (Rule.ofValue stack v)) :
    checkRules stack data = .error (itemIssues stack items) := by
  have hall : Checked.all (checkItems stack 0 items) = .error (itemIssues stack items) := by
    refine Checked.eq_error_iff.mpr
      ⟨Checked.fails_all_iff.mpr (exists_fails_checkItems_iff.mpr h), ?_⟩
    rw [Checked.issues_all, checkItems_eq_map, List.flatMap_map, itemIssues]
    simp only [Checked.issues_under]
  simp only [checkRules, hitems, hall]

theorem checkRules_of_repeats (hitems : itemsOf? data = some items)
    (hrules : items.map (Rule.ofValue stack) = rules.map .ok) (h : ¬ (rules.map Rule.id).Nodup) :
    ∃ j id, IsLeast (repeats (rules.map Rule.id)) j ∧ (rules.map Rule.id)[j]? = some id ∧
      checkRules stack data = .fail (.invalid ("Duplicate rule id: " ++ id)) := by
  cases hrepeated : repeatedId? [] rules with
  | none => exact absurd (repeatedId?_eq_none_iff.mp hrepeated).2 h
  | some id =>
      obtain ⟨j, hleast, hj⟩ := isLeast_of_repeatedId? hrepeated
      refine ⟨j, id, hleast, hj, ?_⟩
      simp only [checkRules, hitems, all_checkItems_eq_ok_iff.mpr hrules, hrepeated]

/-- Where the settings are right, what is wrong with the rules is all that is reported. -/
theorem ofValue_of_rules {entries : List (Value × Value)} {settings : Settings}
    {found : List Issue}
    (hsettings : optionalField entries "settings" Settings.default Settings.ofValue = .ok settings)
    (hdata : Value.field? entries "rules" = some data) (h : checkRules stack data = .error found) :
    ofValue stack (.map entries) = .error (found.map (Issue.under (.field "rules"))) := by
  have hrules : optionalField entries "rules" [] (checkRules stack) =
      .error (found.map (Issue.under (.field "rules"))) := by
    simp only [optionalField, hdata, h, Checked.under]
  simp only [ofValue, hsettings, hrules, Checked.both]

/-- Where the settings are right, a rule set is accepted exactly if its rules are. -/
theorem ofValue_map_eq_ok_iff {entries : List (Value × Value)} {settings : Settings}
    {ruleSet : RuleSet}
    (hsettings :
      optionalField entries "settings" Settings.default Settings.ofValue = .ok settings) :
    ofValue stack (.map entries) = .ok ruleSet ↔
      ruleSet.settings = settings ∧
        (Value.field? entries "rules" = none ∧ ruleSet.rules = [] ∨
          ∃ items, GivesItems entries items ∧
            items.map (Rule.ofValue stack) = ruleSet.rules.map .ok ∧
            (ruleSet.rules.map Rule.id).Nodup) := by
  have hrules : optionalField entries "rules" [] (checkRules stack) = .ok ruleSet.rules ↔
      Value.field? entries "rules" = none ∧ ruleSet.rules = [] ∨
        ∃ items, GivesItems entries items ∧ items.map (Rule.ofValue stack) = ruleSet.rules.map .ok ∧
          (ruleSet.rules.map Rule.id).Nodup := by
    rw [optionalField_eq_ok_iff]
    simp only [checkRules_eq_ok_iff, givesItems_iff, eq_comm (a := ([] : List Rule))]
    refine or_congr_right ?_
    constructor
    · rintro ⟨data, hdata, items, hitems, hchecked⟩
      exact ⟨items, ⟨data, hdata, hitems⟩, hchecked⟩
    · rintro ⟨items, ⟨data, hdata, hitems⟩, hchecked⟩
      exact ⟨data, hdata, items, hitems, hchecked⟩
  rw [ofValue_eq_ok_iff, ← hrules]
  constructor
  · rintro ⟨other, hother, hfound, haccepted⟩
    obtain rfl := Value.map.inj hother
    exact ⟨Except.ok.inj (hfound.symm.trans hsettings), haccepted⟩
  · rintro ⟨rfl, haccepted⟩
    exact ⟨entries, rfl, hsettings, haccepted⟩

end Refused

end RuleSet

/-- What is read first from a rule is what its source is parsed to. -/
theorem RuleCell.read_ofRule {stack : CallStack} {r : Rule} {e : BoolExpr}
    (h : BoolExpr.parse? stack r.condition = .ok (some e)) :
    ((RuleCell.ofRule r).read stack).1 = .ok (some e) := by
  simp only [RuleCell.ofRule, RuleCell.read, RuleCell.read.readAnew,
    Rule.readExpression_of_parse? h]

open RuleSet in
/-- Next to right settings, rules are accepted exactly if there are none or they are the
items of a list or of a set, each of which is accepted by itself, and their ids are
different. Else the issues of the items are reported, in order and with their positions, or,
where the items have none, the first id that stood before. An accepted rule has an expression,
and each stack with room for its parentheses gives the same one, by parsing the source or by
reading the rule. -/
theorem ruleSet_from_items {stack : CallStack} {entries : List (Value × Value)}
    {settings : Settings}
    (hsettings :
      optionalField entries "settings" Settings.default Settings.ofValue = .ok settings) :
    (∀ ruleSet, RuleSet.ofValue stack (.map entries) = .ok ruleSet ↔
      ruleSet.settings = settings ∧
        (Value.field? entries "rules" = none ∧ ruleSet.rules = [] ∨
          ∃ items, GivesItems entries items ∧
            items.map (Rule.ofValue stack) = ruleSet.rules.map .ok ∧
            (ruleSet.rules.map Rule.id).Nodup)) ∧
    (∀ items, GivesItems entries items → (∃ item ∈ items, Fails (Rule.ofValue stack item)) →
      RuleSet.ofValue stack (.map entries) =
        .error ((itemIssues stack items).map (Issue.under (.field "rules")))) ∧
    (∀ items (rules : List Rule), GivesItems entries items →
      items.map (Rule.ofValue stack) = rules.map .ok → ¬ (rules.map Rule.id).Nodup →
        ∃ j id, IsLeast (repeats (rules.map Rule.id)) j ∧ (rules.map Rule.id)[j]? = some id ∧
          RuleSet.ofValue stack (.map entries) =
            .error [⟨[.field "rules"], .invalid ("Duplicate rule id: " ++ id)⟩]) ∧
    ∀ ruleSet, RuleSet.ofValue stack (.map entries) = .ok ruleSet → ∀ r ∈ ruleSet.rules,
      ∃ e, BoolExpr.parse? stack r.condition = .ok (some e) ∧
        ∀ later : CallStack, later.Lasts r.condition →
          BoolExpr.parse? later r.condition = .ok (some e) ∧
            ((RuleCell.ofRule r).read later).1 = .ok (some e) := by
  refine ⟨?_, ?_, ?_, ?_⟩
  · intro ruleSet
    exact ofValue_map_eq_ok_iff hsettings
  · intro items hgives hfails
    obtain ⟨data, hdata, hitems⟩ := givesItems_iff.mp hgives
    exact ofValue_of_rules hsettings hdata (checkRules_of_fails hitems hfails)
  · intro items rules hgives hrules hrepeated
    obtain ⟨data, hdata, hitems⟩ := givesItems_iff.mp hgives
    obtain ⟨j, id, hleast, hj, hcheck⟩ := checkRules_of_repeats hitems hrules hrepeated
    exact ⟨j, id, hleast, hj, ofValue_of_rules hsettings hdata hcheck⟩
  · intro ruleSet h r hr
    obtain ⟨e, hparse⟩ := (valid_of_ofValue h).readable r hr
    refine ⟨e, hparse, fun later hlasts => ?_⟩
    have hlater := (BoolExpr.parse?_eq_some_iff_lasts hparse).mpr hlasts
    exact ⟨hlater, RuleCell.read_ofRule hlater⟩

/-- Three rules of which the last has the id of the first. -/
theorem ruleSet_from_items_repeated :
    let rules : List Rule := [⟨"a", "true", 0, none⟩, ⟨"b", "true", 1, none⟩,
      ⟨"a", "true", 2, none⟩]
    ∃ j id, IsLeast (repeats (rules.map Rule.id)) j ∧ (rules.map Rule.id)[j]? = some id ∧
      RuleSet.ofValue .least (RuleSet.valueOf rules) =
        .error [⟨[.field "rules"], .invalid ("Duplicate rule id: " ++ id)⟩] := by
  intro rules
  have hitems : (rules.map Rule.toValue).map (Rule.ofValue .least) = rules.map .ok := by
    rw [List.map_map]
    refine List.map_congr_left ?_
    simp only [rules, List.forall_mem_cons, List.not_mem_nil, Function.comp_apply]
    refine ⟨Rule.ofValue_toValue (by decide) (Rule.readable_of_true rfl),
      Rule.ofValue_toValue (by decide) (Rule.readable_of_true rfl),
      Rule.ofValue_toValue (by decide) (Rule.readable_of_true rfl), ?_⟩
    exact fun _ => False.elim
  have hsettings : optionalField [(.text "rules", .list (rules.map Rule.toValue))] "settings"
      Settings.default Settings.ofValue = .ok Settings.default := rfl
  obtain ⟨-, -, hrepeated, -⟩ := ruleSet_from_items hsettings
  exact hrepeated _ rules ⟨_, rfl, .inl rfl⟩ hitems (by decide)

/-- An empty set is no list and is accepted as no rules. -/
theorem ruleSet_of_empty_set :
    let entries : List (Value × Value) := [(.text "rules", .set [])]
    RuleSet.ofValue .least (.map entries) = .ok RuleSet.empty ∧
      Value.field? entries "settings" = none ∧
      Value.field? entries "rules" ≠ none ∧
      ∀ items, Value.field? entries "rules" ≠ some (.list items) := by
  refine ⟨rfl, rfl, ?_, ?_⟩
  · intro habsent
    cases habsent
  · intro items hlist
    cases hlist

end DateRules
