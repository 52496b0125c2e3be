import DateRules.Rule.Matching

/-!
# Asking rules by reference

Which items a strategy reports depends on what the items stand for, not on how they
are referred to: `matching_map` reports the rules that a list of references stands
for.
-/

namespace DateRules

section Asking

variable {m : Type → Type} [Monad m] [LawfulMonad m] {α β : Type}

theorem firstWhere_map (ask : β → m Bool) (g : α → β) (items : List α) :
    firstWhere ask (items.map g) = Option.map g <$> firstWhere (fun a => ask (g a)) items := by
  induction items with
  | nil => simp [firstWhere]
  | cons a items ih =>
      rw [List.map_cons, firstWhere, firstWhere, ih, map_bind]
      congr 1
      funext yes
      cases yes <;> simp

theorem allWhere_map (ask : β → m Bool) (g : α → β) (items : List α) :
    allWhere ask (items.map g) = List.map g <$> allWhere (fun a => ask (g a)) items := by
  induction items with
  | nil => simp [allWhere]
  | cons a items ih =>
      rw [List.map_cons, allWhere, allWhere, ih, map_bind]
      congr 1
      funext yes
      cases yes <;> simp

theorem reportedWhere_map (strategy : MatchStrategy) (ask : β → m Bool) (g : α → β)
    (items : List α) :
    reportedWhere strategy ask (items.map g) =
      List.map g <$> reportedWhere strategy (fun a => ask (g a)) items := by
  have hfirst := firstWhere_map ask g items
  cases strategy with
  | allMatch => exact allWhere_map ask g items
  | firstMatch => simp [reportedWhere, hfirst, Option.toList_map]
  | priority => simp [reportedWhere, hfirst, Option.toList_map]

end Asking

theorem askingOrder_map {α β : Type} (strategy : MatchStrategy) (priority : β → Int)
    (g : α → β) (items : List α) :
    askingOrder strategy priority (items.map g) =
      (askingOrder strategy (fun a => priority (g a)) items).map g := by
  have hsort : byPriority priority (items.map g) =
      (byPriority (fun a => priority (g a)) items).map g := by
    symm
    apply List.map_mergeSort
    intro a _ b _
    rfl
  cases strategy with
  | firstMatch => rfl
  | priority => exact hsort
  | allMatch => exact hsort

/-- The reports of the rules that a list of references stands for. -/
theorem matching_map {α : Type} (stack : CallStack) (strategy : MatchStrategy) (g : α → Rule)
    (items : List α) (d : Date) :
    matching stack strategy (items.map g) d = do
      let order := askingOrder strategy (fun a => (g a).priority) items
      let reported ← reportedWhere strategy (fun a => (g a).appliesOn stack d) order
      return reported.map fun a => (g a).reportOn d := by
  simp [matching, askingOrder_map, reportedWhere_map, Function.comp_def]

end DateRules
