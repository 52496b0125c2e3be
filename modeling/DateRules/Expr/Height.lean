import DateRules.Expr.Basic

/-!
# The height of expressions

The height of a tree is the number of nodes on its longest path from the root
to a leaf. `IntExpr.height` and `BoolExpr.height` define it by recursion on the
tree; `Expr.depth` finds it with a list of pending subtrees in place of a
recursion, so that it works on trees of any height.
-/

namespace DateRules

namespace IntExpr

/-- The number of nodes on the longest path to a leaf. -/
def height : IntExpr → Nat
  | literal _ => 1
  | quantity _ => 1
  | negate e => e.height + 1
  | arith _ l r => max l.height r.height + 1

/-- The number of nodes. -/
def size : IntExpr → Nat
  | literal _ => 1
  | quantity _ => 1
  | negate e => e.size + 1
  | arith _ l r => l.size + r.size + 1

end IntExpr

namespace BoolExpr

/-- The number of nodes on the longest path to a leaf. -/
def height : BoolExpr → Nat
  | literal _ => 1
  | statement _ => 1
  | not e => e.height + 1
  | connect _ l r => max l.height r.height + 1
  | compare _ l r => max l.height r.height + 1

/-- The number of nodes. -/
def size : BoolExpr → Nat
  | literal _ => 1
  | statement _ => 1
  | not e => e.size + 1
  | connect _ l r => l.size + r.size + 1
  | compare _ l r => l.size + r.size + 1

end BoolExpr

namespace Expr

def height : Expr → Nat
  | int e => e.height
  | bool e => e.height

def size : Expr → Nat
  | int e => e.size
  | bool e => e.size

/-- The direct subtrees of an expression. -/
def children : Expr → List Expr
  | int (.literal _) => []
  | int (.quantity _) => []
  | int (.negate e) => [int e]
  | int (.arith _ l r) => [int l, int r]
  | bool (.literal _) => []
  | bool (.statement _) => []
  | bool (.not e) => [bool e]
  | bool (.connect _ l r) => [bool l, bool r]
  | bool (.compare _ l r) => [int l, int r]

/-- The nodes in a list of pending subtrees. -/
def pendingSize : List (Expr × Nat) → Nat
  | [] => 0
  | (e, _) :: pending => e.size + pendingSize pending

theorem pendingSize_append (first second : List (Expr × Nat)) :
    pendingSize (first ++ second) = pendingSize first + pendingSize second := by
  induction first with
  | nil => exact (Nat.zero_add _).symm
  | cons entry first ih =>
      rw [List.cons_append, pendingSize, ih, pendingSize, Nat.add_assoc]

/-- A tree has one node more than its subtrees have together. -/
theorem pendingSize_children (e : Expr) (level : Nat) :
    pendingSize (e.children.map fun child => (child, level)) + 1 = e.size := by
  rcases e with e | e <;> cases e <;>
    simp [pendingSize, size, children, IntExpr.size, BoolExpr.size]

/-- The deepest level met in a list of pending subtrees, each with its own
level, and `deepest` so far: the first subtree is replaced by its children, one
level down. -/
def deepestLevel (deepest : Nat) : List (Expr × Nat) → Nat
  | [] => deepest
  | (e, level) :: pending =>
      deepestLevel (max deepest level)
        (e.children.map (fun child => (child, level + 1)) ++ pending)
termination_by pending => pendingSize pending
decreasing_by
  have hchildren := pendingSize_children e (level + 1)
  rw [pendingSize_append, pendingSize]
  omega

/-- The height of an expression, found without recursion on it. -/
def depth (e : Expr) : Nat := deepestLevel 0 [(e, 1)]

end Expr

end DateRules
