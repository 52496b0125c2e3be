import Mathlib.Data.List.Nodup
import DateRules.Proofs.Engine.Sessions

/-!
# Which rules an engine finds

The table of an engine gives, under each id, the last of the listed rules that carries
it (`lookUp_tableOf_eq_some_iff`), and nothing under an id that none carries. If no two
listed rules have one id, it gives every listed rule under its own.
-/

namespace DateRules

section Tables

variable {n m : Nat}

theorem lookUp_map (f : Fin n → Fin m) (table : List (String × Fin n)) (id : String) :
    lookUp (table.map fun entry => (entry.1, f entry.2)) id = (lookUp table id).map f := by
  rw [lookUp, lookUp, ← List.map_reverse, List.find?_map, Option.map_map, Option.map_map]
  rfl

variable {rules : Vector RuleCell n} {listed : List (Fin n)} {id : String} {i : Fin n}

theorem lookUp_tableOf (rules : Vector RuleCell n) (listed : List (Fin n)) (id : String) :
    lookUp (tableOf rules listed) id =
      listed.reverse.find? fun i => (rules.get i).rule.id == id := by
  rw [lookUp, tableOf, ← List.map_reverse, List.find?_map, Option.map_map]
  exact Option.map_id'

/-- Of the listed rules that carry an id, the last one. -/
def IsLastWith (rules : Vector RuleCell n) (listed : List (Fin n)) (id : String)
    (i : Fin n) : Prop :=
  (rules.get i).rule.id = id ∧
    ∃ before after, listed = before ++ i :: after ∧ ∀ j ∈ after, (rules.get j).rule.id ≠ id

theorem lookUp_tableOf_eq_some_iff :
    lookUp (tableOf rules listed) id = some i ↔ IsLastWith rules listed id i := by
  rw [lookUp_tableOf, List.find?_eq_some_iff_append, IsLastWith, beq_iff_eq]
  refine and_congr_right fun _ => ?_
  constructor
  · rintro ⟨after, before, hlisted, hafter⟩
    refine ⟨before.reverse, after.reverse, ?_, ?_⟩
    · rw [← List.reverse_reverse listed, hlisted]
      simp
    · intro j hj
      simpa using hafter j (List.mem_reverse.mp hj)
  · rintro ⟨before, after, hlisted, hafter⟩
    refine ⟨after.reverse, before.reverse, ?_, ?_⟩
    · rw [hlisted]
      simp
    · intro j hj
      simpa using hafter j (List.mem_reverse.mp hj)

theorem lookUp_tableOf_eq_none_iff :
    lookUp (tableOf rules listed) id = none ↔ ∀ j ∈ listed, (rules.get j).rule.id ≠ id := by
  rw [lookUp_tableOf, List.find?_eq_none]
  simp

theorem lookUp_tableOf_of_nodup (h : (listed.map fun i => (rules.get i).rule.id).Nodup) :
    lookUp (tableOf rules listed) id = some i ↔ i ∈ listed ∧ (rules.get i).rule.id = id := by
  constructor
  · intro hfound
    obtain ⟨hid, before, after, hlisted, -⟩ := lookUp_tableOf_eq_some_iff.mp hfound
    exact ⟨hlisted ▸ List.mem_append_cons_self, hid⟩
  · rintro ⟨hmem, hid⟩
    obtain ⟨before, after, hlisted⟩ := List.append_of_mem hmem
    refine lookUp_tableOf_eq_some_iff.mpr ⟨hid, before, after, hlisted, ?_⟩
    rintro j hj rfl
    rw [hlisted, List.map_append, List.map_cons] at h
    -- A rule with this id further back would be the one that is found.
    have hnot := (List.nodup_cons.mp h.of_append_right).1
    exact hnot (List.mem_map.mpr ⟨j, hj, hid.symm⟩)

end Tables

end DateRules
