import DateRules.Expr.Height

/-!
# The depth of an expression is its height

`Expr.depth` walks a list of pending subtrees with their levels. The deepest level
that this walk meets is the greatest level of a leaf below one of the pending
subtrees, which `deepestLeaf` defines by recursion on the list alone.
-/

namespace DateRules

theorem IntExpr.height_pos (e : IntExpr) : 0 < e.height := by
  cases e <;> exact Nat.succ_pos _

theorem BoolExpr.height_pos (e : BoolExpr) : 0 < e.height := by
  cases e <;> exact Nat.succ_pos _

namespace Expr

theorem height_pos (e : Expr) : 0 < e.height := by
  cases e with
  | int e => exact e.height_pos
  | bool e => exact e.height_pos

/-- The greatest level of a leaf in a list of pending subtrees. A subtree of
height 1 is a leaf on its own level. -/
def deepestLeaf : List (Expr × Nat) → Nat
  | [] => 0
  | (e, level) :: pending => max (level + e.height - 1) (deepestLeaf pending)

theorem deepestLeaf_append (first second : List (Expr × Nat)) :
    deepestLeaf (first ++ second) = max (deepestLeaf first) (deepestLeaf second) := by
  induction first with
  | nil => exact (Nat.zero_max _).symm
  | cons entry first ih =>
      rw [List.cons_append, deepestLeaf, ih, deepestLeaf, Nat.max_assoc]

/-- A subtree and its children, one level down, have the same deepest leaf. -/
theorem max_deepestLeaf_children (e : Expr) (level : Nat) :
    max level (deepestLeaf (e.children.map fun child => (child, level + 1))) =
      level + e.height - 1 := by
  have hint := IntExpr.height_pos
  have hbool := BoolExpr.height_pos
  rcases e with e | e
  · cases e with
    | literal value => simp [children, deepestLeaf, height, IntExpr.height]
    | quantity q => simp [children, deepestLeaf, height, IntExpr.height]
    | negate e =>
        have he := hint e
        simp only [children, List.map, deepestLeaf, height, IntExpr.height]
        omega
    | arith op l r =>
        have hl := hint l
        have hr := hint r
        simp only [children, List.map, deepestLeaf, height, IntExpr.height]
        omega
  · cases e with
    | literal value => simp [children, deepestLeaf, height, BoolExpr.height]
    | statement s => simp [children, deepestLeaf, height, BoolExpr.height]
    | not e =>
        have he := hbool e
        simp only [children, List.map, deepestLeaf, height, BoolExpr.height]
        omega
    | connect op l r =>
        have hl := hbool l
        have hr := hbool r
        simp only [children, List.map, deepestLeaf, height, BoolExpr.height]
        omega
    | compare op l r =>
        have hl := hint l
        have hr := hint r
        simp only [children, List.map, deepestLeaf, height, BoolExpr.height]
        omega

theorem deepestLevel_eq_max (deepest : Nat) (pending : List (Expr × Nat)) :
    deepestLevel deepest pending = max deepest (deepestLeaf pending) := by
  fun_induction deepestLevel deepest pending with
  | case1 deepest => exact (Nat.max_zero _).symm
  | case2 deepest e level pending ih =>
      -- The children are put before what is pending, and the maximum forgets the order.
      rw [ih, deepestLeaf_append, deepestLeaf, ← max_deepestLeaf_children e level]
      simp only [Nat.max_assoc]

theorem depth_eq_height (e : Expr) : e.depth = e.height := by
  rw [depth, deepestLevel_eq_max, deepestLeaf, deepestLeaf]
  have h := e.height_pos
  omega

end Expr

end DateRules
