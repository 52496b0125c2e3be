import Mathlib.Data.List.Sort
import DateRules.Proofs.Rule.Applying
import DateRules.Proofs.Rule.Asking

/-!
# What the strategies report

A strategy asks the rules of a list in the order `AskedBefore`: by their places in the
list, or by descending priority and, within one priority, by their places. `placedOrder`
is the list in that order, with the places.

If all rules are readable, the reports are those of the rules that apply, in that order:
all of them or the first one (`matching_eq_ok`). Otherwise `fails_matching_iff` and
`fails_matching_allMatch_iff` say when there are none.
-/

namespace DateRules

/-- The first of two rules, given with their places in a list, is asked before the
second. -/
def AskedBefore (strategy : MatchStrategy) (a b : Rule × Nat) : Prop :=
  match strategy with
  | .firstMatch => a.2 < b.2
  | _ => b.1.priority < a.1.priority ∨ a.1.priority = b.1.priority ∧ a.2 < b.2

theorem AskedBefore.asymm {strategy : MatchStrategy} {a b : Rule × Nat}
    (h : AskedBefore strategy a b) : ¬ AskedBefore strategy b a := by
  cases strategy with
  | firstMatch => exact Nat.lt_asymm h
  | priority =>
      simp only [AskedBefore] at *
      omega
  | allMatch =>
      simp only [AskedBefore] at *
      omega

/-- The rules of a list with their places, in the order in which a strategy asks. -/
def placedOrder (strategy : MatchStrategy) (rules : List Rule) : List (Rule × Nat) :=
  match strategy with
  | .firstMatch => rules.zipIdx
  | _ => rules.zipIdx.mergeSort (List.zipIdxLE fun a b => b.priority ≤ a.priority)

section Order

variable {strategy : MatchStrategy} {rules : List Rule} {a : Rule × Nat}

theorem placedOrder_map_fst (strategy : MatchStrategy) (rules : List Rule) :
    (placedOrder strategy rules).map Prod.fst = askingOrder strategy Rule.priority rules := by
  cases strategy with
  | firstMatch => exact List.zipIdx_map_fst 0 rules
  | priority => exact List.mergeSort_zipIdx
  | allMatch => exact List.mergeSort_zipIdx

theorem placedOrder_perm (strategy : MatchStrategy) (rules : List Rule) :
    (placedOrder strategy rules).Perm rules.zipIdx := by
  cases strategy with
  | firstMatch => exact .refl _
  | priority => exact List.mergeSort_perm _ _
  | allMatch => exact List.mergeSort_perm _ _

theorem mem_placedOrder : a ∈ placedOrder strategy rules ↔ a ∈ rules.zipIdx :=
  (placedOrder_perm strategy rules).mem_iff

theorem mem_of_mem_zipIdx (h : a ∈ rules.zipIdx) : a.1 ∈ rules :=
  List.mem_of_getElem? (List.mem_zipIdx_iff_getElem?.mp h)

theorem placedOrder_pairwise_ne (strategy : MatchStrategy) (rules : List Rule) :
    (placedOrder strategy rules).Pairwise fun a b => a.2 ≠ b.2 := by
  have hplaces : (rules.zipIdx.map Prod.snd).Nodup := by
    rw [List.zipIdx_map_snd]
    exact List.nodup_range'
  rw [← ((placedOrder_perm strategy rules).map Prod.snd).nodup_iff] at hplaces
  exact List.pairwise_map.mp hplaces

/-- Rules of one priority stay in the order of their places when they are sorted. -/
theorem sorted_pairwise (rules : List Rule) :
    (rules.zipIdx.mergeSort (List.zipIdxLE fun a b => b.priority ≤ a.priority)).Pairwise
      fun a b => b.1.priority < a.1.priority ∨ a.1.priority = b.1.priority ∧ a.2 ≤ b.2 := by
  have htrans : ∀ a b c : Rule, decide (b.priority ≤ a.priority) = true →
      decide (c.priority ≤ b.priority) = true → decide (c.priority ≤ a.priority) = true := by
    intro a b c hab hbc
    rw [decide_eq_true_iff] at *
    exact Int.le_trans hbc hab
  have htotal : ∀ a b : Rule,
      (decide (b.priority ≤ a.priority) || decide (a.priority ≤ b.priority)) = true := by
    intro a b
    rw [Bool.or_eq_true, decide_eq_true_iff, decide_eq_true_iff]
    exact Int.le_total b.priority a.priority
  have hsorted := List.pairwise_mergeSort (List.zipIdxLE_trans htrans)
    (List.zipIdxLE_total htotal) rules.zipIdx
  refine hsorted.imp ?_
  intro a b hab
  -- Places are compared only if each priority is at most the other.
  simp only [List.zipIdxLE, decide_eq_true_eq] at hab
  split at hab
  · next hle =>
      split at hab
      · next hge => exact .inr ⟨Int.le_antisymm hge hle, of_decide_eq_true hab⟩
      · next hlt => exact .inl (Int.not_le.mp hlt)
  · cases hab

theorem placedOrder_pairwise (strategy : MatchStrategy) (rules : List Rule) :
    (placedOrder strategy rules).Pairwise (AskedBefore strategy) := by
  have hranked : ∀ a b : Rule × Nat,
      (b.1.priority < a.1.priority ∨ a.1.priority = b.1.priority ∧ a.2 ≤ b.2) → a.2 ≠ b.2 →
        b.1.priority < a.1.priority ∨ a.1.priority = b.1.priority ∧ a.2 < b.2 := by
    intro a b hrank hne
    omega
  have hne := placedOrder_pairwise_ne strategy rules
  cases strategy with
  | firstMatch =>
      have hplaces : (rules.zipIdx.map Prod.snd).Pairwise (· < ·) := by
        rw [List.zipIdx_map_snd]
        exact List.pairwise_lt_range'
      rwa [List.pairwise_map] at hplaces
  | priority => exact (sorted_pairwise rules).imp₂ hranked hne
  | allMatch => exact (sorted_pairwise rules).imp₂ hranked hne

end Order

/-- The rules of a list that apply on a date, with their places, in the order in which a
strategy asks. -/
structure Applicable (stack : CallStack) (strategy : MatchStrategy) (rules : List Rule) (d : Date)
    (order : List (Rule × Nat)) : Prop where
  ordered : order.Pairwise (AskedBefore strategy)
  mem_iff : ∀ a, a ∈ order ↔ a ∈ rules.zipIdx ∧ a.1.Applies stack d

section Reports

variable {stack : CallStack} {strategy : MatchStrategy} {rules : List Rule} {d : Date}

theorem applicable_filter (stack : CallStack) (strategy : MatchStrategy) (rules : List Rule)
    (d : Date) :
    Applicable stack strategy rules d
      ((placedOrder strategy rules).filter (·.1.Applies stack d)) where
  ordered := (placedOrder_pairwise strategy rules).filter _
  mem_iff := by
    intro a
    rw [List.mem_filter, mem_placedOrder, decide_eq_true_iff]

theorem Applicable.eq_nil_iff {order : List (Rule × Nat)}
    (h : Applicable stack strategy rules d order) :
    order = [] ↔ ∀ r ∈ rules, ¬ r.Applies stack d := by
  constructor
  · rintro rfl r hr happlies
    obtain ⟨place, hplace⟩ := List.mem_iff_getElem?.mp hr
    have hmem := (h.mem_iff (r, place)).mpr ⟨List.mk_mem_zipIdx_iff_getElem?.mpr hplace, happlies⟩
    cases hmem
  · intro hnone
    apply List.eq_nil_iff_forall_not_mem.mpr
    intro a ha
    obtain ⟨hplaced, happlies⟩ := (h.mem_iff a).mp ha
    exact hnone a.1 (mem_of_mem_zipIdx hplaced) happlies

theorem Applicable.unique {first second : List (Rule × Nat)}
    (hfirst : Applicable stack strategy rules d first)
    (hsecond : Applicable stack strategy rules d second) : first = second := by
  have : Std.Antisymm (AskedBefore strategy) := ⟨fun _ _ hab hba => absurd hba hab.asymm⟩
  have : Std.Irrefl (AskedBefore strategy) := ⟨fun _ h => h.asymm h⟩
  refine hfirst.ordered.eq_of_mem_iff hsecond.ordered fun a => ?_
  rw [hfirst.mem_iff, hsecond.mem_iff]

/-- If all rules apply, they are applicable with their places in the order of asking. -/
theorem applicable_of_forall (happlies : ∀ r ∈ rules, r.Applies stack d)
    {order : List (Rule × Nat)} (hordered : order.Pairwise (AskedBefore strategy))
    (hmem : ∀ a, a ∈ order ↔ a ∈ rules.zipIdx) : Applicable stack strategy rules d order where
  ordered := hordered
  mem_iff := by
    intro a
    rw [hmem, and_iff_left_of_imp fun ha => happlies a.1 (mem_of_mem_zipIdx ha)]

/-- The reports that a strategy makes of the rules that apply. -/
def reportsOf (strategy : MatchStrategy) (order : List (Rule × Nat)) (d : Date) :
    List RuleMatch :=
  match strategy with
  | .allMatch => order.map (·.1.reportOn d)
  | _ => order.head?.toList.map (·.1.reportOn d)

theorem reportsOf_eq_nil_iff {order : List (Rule × Nat)} :
    reportsOf strategy order d = [] ↔ order = [] := by
  cases strategy <;> cases order <;> simp [reportsOf]

theorem reportedWhere_of_ne {ε α : Type} {ask : α → Except ε Bool} {items : List α}
    (h : strategy ≠ .allMatch) :
    reportedWhere strategy ask items = Option.toList <$> firstWhere ask items := by
  have hfirst : (do return (← firstWhere ask items).toList) =
      Option.toList <$> firstWhere ask items := by
    cases firstWhere ask items <;> rfl
  cases strategy with
  | firstMatch => exact hfirst
  | priority => exact hfirst
  | allMatch => exact absurd rfl h

theorem matching_eq_placed (stack : CallStack) (strategy : MatchStrategy) (rules : List Rule)
    (d : Date) :
    matching stack strategy rules d =
      (List.map (·.1.reportOn d)) <$>
        reportedWhere strategy (·.1.appliesOn stack d) (placedOrder strategy rules) := by
  rw [matching, ← placedOrder_map_fst, reportedWhere_map]
  simp [Function.comp_def]

theorem matching_eq_ok (h : ∀ r ∈ rules, r.Readable stack) (strategy : MatchStrategy) (d : Date) :
    matching stack strategy rules d =
      .ok (reportsOf strategy ((placedOrder strategy rules).filter (·.1.Applies stack d)) d) := by
  have hask : ∀ a ∈ placedOrder strategy rules,
      a.1.appliesOn stack d = .ok (decide (a.1.Applies stack d)) := by
    intro a ha
    exact (h a.1 (mem_of_mem_zipIdx (mem_placedOrder.mp ha))).appliesOn_eq_ok d
  have hall := allWhere_eq_ok hask
  have hfirst := firstWhere_eq_ok hask
  rw [← List.head?_filter] at hfirst
  rw [matching_eq_placed]
  cases strategy with
  | firstMatch =>
      rw [reportedWhere_of_ne (by decide), hfirst]
      rfl
  | priority =>
      rw [reportedWhere_of_ne (by decide), hfirst]
      rfl
  | allMatch =>
      rw [reportedWhere, hall]
      rfl

theorem fails_matching_allMatch_iff :
    Fails (matching stack .allMatch rules d) ↔ ∃ r ∈ rules, ¬ r.Readable stack := by
  rw [matching_eq_placed, fails_map_iff, reportedWhere, fails_allWhere_iff]
  simp only [Rule.fails_appliesOn_iff]
  constructor
  · rintro ⟨a, ha, hreadable⟩
    exact ⟨a.1, mem_of_mem_zipIdx (mem_placedOrder.mp ha), hreadable⟩
  · rintro ⟨r, hr, hreadable⟩
    obtain ⟨place, hplace⟩ := List.mem_iff_getElem?.mp hr
    exact ⟨(r, place), mem_placedOrder.mpr (List.mk_mem_zipIdx_iff_getElem?.mpr hplace), hreadable⟩

/-- A strategy that stops at the first rule that applies meets a rule that is not readable
if that one comes before. -/
theorem fails_matching_iff (h : strategy ≠ .allMatch) :
    Fails (matching stack strategy rules d) ↔
      ∃ a ∈ rules.zipIdx, ¬ a.1.Readable stack ∧
        ∀ b ∈ rules.zipIdx, AskedBefore strategy b a → ¬ b.1.Applies stack d := by
  rw [matching_eq_placed, fails_map_iff, reportedWhere_of_ne h, fails_map_iff,
    fails_firstWhere_iff (fun _ _ => AskedBefore.asymm) (placedOrder_pairwise strategy rules)]
  simp only [mem_placedOrder, Rule.fails_appliesOn_iff, ne_eq, Rule.appliesOn_eq_ok_iff,
    Rule.Applies]

end Reports

end DateRules
