import Mathlib.Data.List.Nodup
import DateRules.Proofs.Rule.Applying

/-!
# Validated rules

Checks side by side succeed exactly if each of them does (`Checked.both_eq_ok_iff`,
`Checked.all_eq_ok_iff`), and a field check if the value of the field passes it
(`requiredField_eq_ok_iff`, `optionalField_eq_ok_iff`). So a rule that is read from data
is readable, since a source without a diagnosis is parsed to a tree, and the rules of a
rule set that is read have different ids (`RuleSet.valid_of_ofValue`).
-/

namespace DateRules

namespace Checked

variable {α β : Type}

theorem under_eq_ok_iff {place : Place} {x : Checked α} {a : α} :
    x.under place = .ok a ↔ x = .ok a := by
  cases x <;> simp [under]

theorem both_eq_ok_iff {x : Checked α} {y : Checked β} {a : α} {b : β} :
    x.both y = .ok (a, b) ↔ x = .ok a ∧ y = .ok b := by
  cases x <;> cases y <;> simp [both]

theorem all_eq_ok_iff {checks : List (Checked α)} {values : List α} :
    all checks = .ok values ↔ checks = values.map .ok := by
  induction checks generalizing values with
  | nil => cases values <;> simp [all]
  | cons check checks ih =>
      have hcons : all (check :: checks) = .ok values ↔
          ∃ a as, check.both (all checks) = .ok (a, as) ∧ a :: as = values := by
        rw [all]
        cases check.both (all checks) with
        | error issues => simp
        | ok found => simp [Prod.ext_iff, and_assoc, exists_and_left]
      rw [hcons]
      cases values with
      | nil => simp
      | cons value values => simp [both_eq_ok_iff, ih]

end Checked

section Fields

variable {α : Type} {entries : List (Value × Value)} {name : String} {check : Value → Checked α}
  {a absent : α}

theorem requiredField_eq_ok_iff :
    requiredField entries name check = .ok a ↔
      ∃ v, Value.field? entries name = some v ∧ check v = .ok a := by
  rw [requiredField]
  cases Value.field? entries name with
  | none => simp [Checked.under_eq_ok_iff, Checked.fail]
  | some v => simp [Checked.under_eq_ok_iff]

theorem optionalField_eq_ok_iff :
    optionalField entries name absent check = .ok a ↔
      Value.field? entries name = none ∧ absent = a ∨
        ∃ v, Value.field? entries name = some v ∧ check v = .ok a := by
  rw [optionalField]
  cases Value.field? entries name with
  | none => simp
  | some v => simp [Checked.under_eq_ok_iff]

end Fields

theorem BoolExpr.diagnose_eq_ok_none_iff {stack : CallStack} {source : String} :
    diagnose stack source = .ok none ↔ ∃ e, parse? stack source = .ok (some e) := by
  rw [diagnose, parse?]
  cases read stack source with
  | ok e => simp [refusalOf, acceptedOf]
  | error failure => cases failure <;> simp [refusalOf, acceptedOf]

namespace Rule

variable {stack : CallStack}

theorem checkCondition_eq_ok {v : Value} {source : String}
    (h : checkCondition stack v = .ok source) :
    ∃ e, BoolExpr.parse? stack source = .ok (some e) := by
  unfold checkCondition at h
  split at h
  · cases h
  · split at h
    · next source' hsource =>
        split at h
        · next hdiagnose =>
            cases h
            exact BoolExpr.diagnose_eq_ok_none_iff.mp hdiagnose
        · cases h
        · cases h
    · cases h

theorem checkCondition_text {source : String} {e : BoolExpr}
    (h : BoolExpr.parse? stack source = .ok (some e)) :
    checkCondition stack (.text source) = .ok source := by
  simp only [checkCondition, Value.toText, BoolExpr.diagnose_eq_ok_none_iff.mpr ⟨e, h⟩]

theorem ofValue_eq_ok_iff {v : Value} {r : Rule} :
    ofValue stack v = .ok r ↔ ∃ entries, v = .map entries ∧
      requiredField entries "id" checkId = .ok r.id ∧
      requiredField entries "when" (checkCondition stack) = .ok r.condition ∧
      optionalField entries "priority" 0 Value.toInteger = .ok r.priority ∧
      optionalField entries "description" none checkDescription = .ok r.description := by
  constructor
  · intro h
    cases v with
    | map entries =>
        rw [ofValue] at h
        split at h
        · next hchecks =>
            cases h
            rw [Checked.both_eq_ok_iff, Checked.both_eq_ok_iff, Checked.both_eq_ok_iff] at hchecks
            obtain ⟨⟨⟨hid, hcondition⟩, hpriority⟩, hdescription⟩ := hchecks
            exact ⟨entries, rfl, hid, hcondition, hpriority, hdescription⟩
        · cases h
    | _ => cases h
  · rintro ⟨entries, rfl, hid, hcondition, hpriority, hdescription⟩
    simp only [ofValue, hid, hcondition, hpriority, hdescription, Checked.both]

/-- The data of a rule. -/
def toValue (r : Rule) : Value :=
  .map [(.text "id", .text r.id), (.text "when", .text r.condition),
    (.text "priority", .int r.priority),
    (.text "description", (r.description.map .text).getD .null)]

theorem ofValue_toValue {r : Rule} (hid : isRuleId r.id.toList = true) (h : r.Readable stack) :
    ofValue stack r.toValue = .ok r := by
  obtain ⟨e, hparse⟩ := h
  refine ofValue_eq_ok_iff.mpr ⟨_, rfl, ?_, ?_, rfl, ?_⟩
  · refine requiredField_eq_ok_iff.mpr ⟨_, rfl, ?_⟩
    simp only [checkId, Value.toText, hid, if_true]
  · exact requiredField_eq_ok_iff.mpr ⟨_, rfl, checkCondition_text hparse⟩
  · refine optionalField_eq_ok_iff.mpr (.inr ⟨_, rfl, ?_⟩)
    cases r.description <;> rfl

theorem readable_of_ofValue {v : Value} {r : Rule} (h : ofValue stack v = .ok r) :
    r.Readable stack := by
  obtain ⟨entries, -, -, hcondition, -⟩ := ofValue_eq_ok_iff.mp h
  obtain ⟨source, -, hsource⟩ := requiredField_eq_ok_iff.mp hcondition
  exact checkCondition_eq_ok hsource

end Rule

namespace RuleSet

variable {stack : CallStack}

theorem repeatedId?_eq_none_iff {seen : List String} {rules : List Rule} :
    repeatedId? seen rules = none ↔
      (∀ r ∈ rules, r.id ∉ seen) ∧ (rules.map Rule.id).Nodup := by
  induction rules generalizing seen with
  | nil => simp [repeatedId?]
  | cons r rules ih =>
      rw [repeatedId?, List.map_cons, List.nodup_cons, List.forall_mem_cons]
      split
      · next hseen => simp [hseen]
      · next hseen =>
          rw [ih]
          simp only [List.mem_cons, not_or, List.mem_map, not_exists, not_and]
          constructor
          · rintro ⟨hfresh, hdistinct⟩
            exact ⟨⟨hseen, fun r' hr' => (hfresh r' hr').2⟩, fun r' hr' => (hfresh r' hr').1,
              hdistinct⟩
          · rintro ⟨⟨-, hfresh⟩, hne, hdistinct⟩
            exact ⟨fun r' hr' => ⟨hne r' hr', hfresh r' hr'⟩, hdistinct⟩

theorem all_checkItems_eq_ok_iff {position : Nat} {items : List Value} {rules : List Rule} :
    Checked.all (checkItems stack position items) = .ok rules ↔
      items.map (Rule.ofValue stack) = rules.map .ok := by
  rw [Checked.all_eq_ok_iff]
  induction items generalizing position rules with
  | nil => simp [checkItems]
  | cons v items ih =>
      rw [checkItems]
      cases rules with
      | nil => simp
      | cons r rules => simp [Checked.under_eq_ok_iff, ih]

/-- Rules are accepted exactly if each is by itself and their ids are different. -/
theorem checkRules_eq_ok_iff {v : Value} {rules : List Rule} :
    checkRules stack v = .ok rules ↔
      ∃ items, itemsOf? v = some items ∧ items.map (Rule.ofValue stack) = rules.map .ok ∧
        (rules.map Rule.id).Nodup := by
  constructor
  · intro h
    unfold checkRules at h
    split at h
    · next items hitems =>
        split at h
        · next found hfound =>
            split at h
            · next hrepeated =>
                cases h
                exact ⟨items, hitems, all_checkItems_eq_ok_iff.mp hfound,
                  (repeatedId?_eq_none_iff.mp hrepeated).2⟩
            · cases h
        · cases h
    · cases h
  · rintro ⟨items, hitems, hrules, hdistinct⟩
    have hrepeated : repeatedId? [] rules = none :=
      repeatedId?_eq_none_iff.mpr ⟨fun r _ => List.not_mem_nil, hdistinct⟩
    simp only [checkRules, hitems, all_checkItems_eq_ok_iff.mpr hrules, hrepeated]

/-- The rules of a rule set are readable and have different ids. -/
structure Valid (stack : CallStack) (ruleSet : RuleSet) : Prop where
  readable : ∀ r ∈ ruleSet.rules, r.Readable stack
  distinct : (ruleSet.rules.map Rule.id).Nodup

theorem ofValue_eq_ok_iff {v : Value} {ruleSet : RuleSet} :
    ofValue stack v = .ok ruleSet ↔ ∃ entries, v = .map entries ∧
      optionalField entries "settings" Settings.default Settings.ofValue = .ok ruleSet.settings ∧
      optionalField entries "rules" [] (checkRules stack) = .ok ruleSet.rules := by
  constructor
  · intro h
    cases v with
    | map entries =>
        rw [ofValue] at h
        split at h
        · next hchecks =>
            cases h
            exact ⟨entries, rfl, Checked.both_eq_ok_iff.mp hchecks⟩
        · cases h
    | _ => cases h
  · rintro ⟨entries, rfl, hsettings, hrules⟩
    simp only [ofValue, hsettings, hrules, Checked.both]

/-- The data of rules without settings. -/
def valueOf (rules : List Rule) : Value :=
  .map [(.text "rules", .list (rules.map Rule.toValue))]

/-- A rule set that is read from data is valid. -/
theorem valid_of_ofValue {v : Value} {ruleSet : RuleSet} (h : ofValue stack v = .ok ruleSet) :
    ruleSet.Valid stack := by
  obtain ⟨entries, -, -, hrules⟩ := ofValue_eq_ok_iff.mp h
  rcases optionalField_eq_ok_iff.mp hrules with ⟨-, hempty⟩ | ⟨data, -, hchecked⟩
  · exact ⟨by simp [← hempty], by simp [← hempty]⟩
  · obtain ⟨items, -, hitems, hdistinct⟩ := checkRules_eq_ok_iff.mp hchecked
    refine ⟨fun r hr => ?_, hdistinct⟩
    have hmem : (.ok r : Checked Rule) ∈ items.map (Rule.ofValue stack) :=
      hitems ▸ List.mem_map_of_mem hr
    obtain ⟨item, -, hitem⟩ := List.mem_map.mp hmem
    exact Rule.readable_of_ofValue hitem

end RuleSet

end DateRules
