import DateRules.Proofs.Parser.Exactness
import Mathlib.Order.Bounds.Defs

/-!
# Visiting an expression level by level

A visit takes one of the subtrees that are pending, keeps the deeper one of its level and the
deepest level met before, and makes its children pending, one level down. `Survey.Visit`
leaves open which subtree is taken and where among the others its children are put, so
that a stack, a queue and any mixture of them are walks of this kind. The walk of
`Expr.depth` is one of them (`Survey.visits_deepestLevel`).

A visit takes one node away and keeps the greatest level that is met or pending
(`Survey.Visit.pendingSize_eq`, `Survey.Visit.reach_eq`). So a walk over a tree ends after as
many visits as the tree has nodes, whatever their order, and has then met the height of the
tree. `depth_counts_levels` says this together with what the height is, and what the limit on
it does to a text.
-/

namespace DateRules

namespace Expr

variable {e child l r : Expr} {level : Nat}

theorem size_pos (e : Expr) : 0 < e.size := by
  have hchildren := pendingSize_children e 0
  omega

theorem pendingSize_perm {first second : List (Expr × Nat)} (h : first.Perm second) :
    pendingSize first = pendingSize second := by
  induction h with
  | nil => rfl
  | cons entry _ ih => rw [pendingSize, pendingSize, ih]
  | swap first second rest =>
      rw [pendingSize, pendingSize, pendingSize, pendingSize]
      exact Nat.add_left_comm _ _ _
  | trans _ _ ih₁ ih₂ => exact ih₁.trans ih₂

theorem deepestLeaf_perm {first second : List (Expr × Nat)} (h : first.Perm second) :
    deepestLeaf first = deepestLeaf second := by
  induction h with
  | nil => rfl
  | cons entry _ ih => rw [deepestLeaf, deepestLeaf, ih]
  | swap first second rest =>
      rw [deepestLeaf, deepestLeaf, deepestLeaf, deepestLeaf]
      exact Nat.max_left_comm _ _ _
  | trans _ _ ih₁ ih₂ => exact ih₁.trans ih₂

theorem pendingSize_eq_zero {pending : List (Expr × Nat)} :
    pendingSize pending = 0 ↔ pending = [] := by
  cases pending with
  | nil => exact ⟨fun _ => rfl, fun _ => rfl⟩
  | cons entry pending =>
      have hpos := entry.1.size_pos
      rw [pendingSize]
      exact ⟨fun h => by omega, fun h => absurd h (List.cons_ne_nil _ _)⟩

/-- The deepest level met in a walk over a tree, and the subtrees that are pending, each with
its level. -/
structure Survey where
  deepest : Nat
  pending : List (Expr × Nat)

namespace Survey

/-- The walk over a tree before its first visit. -/
def start (e : Expr) : Survey := ⟨0, [(e, 1)]⟩

/-- The greatest level that was met or is that of a pending leaf. -/
def reach (s : Survey) : Nat := max s.deepest (deepestLeaf s.pending)

/-- One of the pending subtrees is visited. Its children may go anywhere. -/
inductive Visit : Survey → Survey → Prop
  | mk {deepest level : Nat} {e : Expr} {before after pending : List (Expr × Nat)}
      (placed : pending.Perm ((e.children.map fun child => (child, level + 1)) ++
        (before ++ after))) :
      Visit ⟨deepest, before ++ (e, level) :: after⟩ ⟨max deepest level, pending⟩

/-- A number of visits, one after the other. -/
inductive Visits : Nat → Survey → Survey → Prop
  | done (s : Survey) : Visits 0 s s
  | next {n : Nat} {s t u : Survey} (first : Visit s t) (rest : Visits n t u) :
      Visits (n + 1) s u

variable {s t : Survey} {n : Nat}

theorem Visit.pendingSize_eq (h : Visit s t) :
    pendingSize t.pending + 1 = pendingSize s.pending := by
  obtain @⟨deepest, level, e, before, after, pending, placed⟩ := h
  have hchildren := pendingSize_children e (level + 1)
  change pendingSize pending + 1 = pendingSize (before ++ (e, level) :: after)
  rw [pendingSize_perm placed, pendingSize_append, pendingSize_append, pendingSize_append,
    pendingSize]
  omega

theorem Visit.reach_eq (h : Visit s t) : t.reach = s.reach := by
  obtain @⟨deepest, level, e, before, after, pending, placed⟩ := h
  have hchildren := max_deepestLeaf_children e level
  change max (max deepest level) (deepestLeaf pending) =
    max deepest (deepestLeaf (before ++ (e, level) :: after))
  rw [deepestLeaf_perm placed, deepestLeaf_append, deepestLeaf_append, deepestLeaf_append,
    deepestLeaf, ← hchildren]
  -- Both are the greatest of the same five levels.
  omega

theorem Visits.pendingSize_eq (h : Visits n s t) :
    pendingSize t.pending + n = pendingSize s.pending := by
  induction h with
  | done s => rfl
  | next first _ ih =>
      have hfirst := first.pendingSize_eq
      omega

theorem Visits.reach_eq (h : Visits n s t) : t.reach = s.reach := by
  induction h with
  | done s => rfl
  | next first _ ih => rw [ih, first.reach_eq]

/-- A stack may be taken from at its front. -/
theorem visit_first (deepest level : Nat) (e : Expr) (stack : List (Expr × Nat)) :
    Visit ⟨deepest, (e, level) :: stack⟩
      ⟨max deepest level, (e.children.map fun child => (child, level + 1)) ++ stack⟩ := by
  change Visit ⟨deepest, [] ++ (e, level) :: stack⟩ _
  exact .mk (List.Perm.refl _)

/-- A stack may be taken from at its end, with the children put there as well. -/
theorem visit_last (deepest level : Nat) (e : Expr) (stack : List (Expr × Nat)) :
    Visit ⟨deepest, stack ++ [(e, level)]⟩
      ⟨max deepest level, stack ++ e.children.map fun child => (child, level + 1)⟩ := by
  refine .mk ?_
  rw [List.append_nil]
  exact List.perm_append_comm

/-- As long as something is pending it can be visited. -/
theorem exists_visit (h : s.pending ≠ []) : ∃ t, Visit s t := by
  obtain ⟨deepest, pending⟩ := s
  cases pending with
  | nil => exact absurd rfl h
  | cons entry pending => exact ⟨_, visit_first _ _ _ _⟩

/-- The walk that takes the first entry ends with the deepest level. -/
theorem visits_deepestLevel (deepest : Nat) (pending : List (Expr × Nat)) :
    Visits (pendingSize pending) ⟨deepest, pending⟩ ⟨deepestLevel deepest pending, []⟩ := by
  fun_induction deepestLevel deepest pending with
  | case1 deepest => exact .done _
  | case2 deepest e level pending ih =>
      have hvisit := visit_first deepest level e pending
      have hsize := hvisit.pendingSize_eq
      have hwalk := Visits.next hvisit ih
      change pendingSize (_ ++ pending) + 1 = _ at hsize
      rwa [hsize] at hwalk

theorem pendingSize_start (e : Expr) : pendingSize (start e).pending = e.size := rfl

theorem reach_start (e : Expr) : (start e).reach = e.height := by
  have hpos := e.height_pos
  change max 0 (max (1 + e.height - 1) 0) = e.height
  omega

/-- A walk over a tree has visited the whole tree after as many visits as this has nodes. -/
theorem Visits.pending_eq_nil_iff (h : Visits n (start e) s) :
    s.pending = [] ↔ n = e.size := by
  have hsize := h.pendingSize_eq
  rw [pendingSize_start] at hsize
  rw [← pendingSize_eq_zero]
  omega

/-- What a walk over a whole tree has met is the height of the tree. -/
theorem Visits.deepest_eq (h : Visits n (start e) s) (hend : s.pending = []) :
    s.deepest = e.height := by
  have hreach := h.reach_eq
  rw [reach_start, reach, hend] at hreach
  exact (Nat.max_zero _).symm.trans hreach

end Survey

section Paths

/-- The nodes on a way from an expression down to a leaf. -/
inductive PathToLeaf : Expr → List Expr → Prop
  | leaf {e : Expr} (h : e.children = []) : PathToLeaf e [e]
  | child {e child : Expr} {path : List Expr} (h : child ∈ e.children)
      (rest : PathToLeaf child path) : PathToLeaf e (e :: path)

theorem height_of_leaf (h : e.children = []) : e.height = 1 := by
  rcases e with e | e <;> cases e <;> first | rfl | cases h

theorem height_of_operand (h : e.children = [child]) : e.height = child.height + 1 := by
  rcases e with e | e <;> cases e <;> cases h <;> rfl

theorem height_of_binary (h : e.children = [l, r]) :
    e.height = max l.height r.height + 1 := by
  rcases e with e | e <;> cases e <;> cases h <;> rfl

/-- An expression is a leaf, or has one operand, or has two sides. -/
theorem children_cases (e : Expr) : e.children = [] ∨ (∃ child, e.children = [child]) ∨
    ∃ l r, e.children = [l, r] := by
  rcases e with e | e <;> cases e <;> simp [children]

theorem height_lt_of_mem_children (h : child ∈ e.children) : child.height < e.height := by
  rcases e.children_cases with hleaf | ⟨operand, hoperand⟩ | ⟨l, r, hbinary⟩
  · rw [hleaf] at h
    cases h
  · rw [hoperand] at h
    rw [height_of_operand hoperand, List.mem_singleton.mp h]
    exact Nat.lt_succ_self _
  · rw [hbinary] at h
    rw [height_of_binary hbinary]
    rcases List.mem_pair.mp h with rfl | rfl <;> omega

/-- Below an expression that is no leaf there is one less high by one. -/
theorem exists_mem_children (h : e.children ≠ []) :
    ∃ child ∈ e.children, e.height = child.height + 1 := by
  rcases e.children_cases with hleaf | ⟨operand, hoperand⟩ | ⟨l, r, hbinary⟩
  · exact absurd hleaf h
  · refine ⟨operand, ?_, height_of_operand hoperand⟩
    rw [hoperand]
    exact List.mem_singleton_self _
  · rw [hbinary, height_of_binary hbinary]
    rcases Nat.le_total l.height r.height with hle | hle
    · exact ⟨r, by simp, by rw [Nat.max_eq_right hle]⟩
    · exact ⟨l, by simp, by rw [Nat.max_eq_left hle]⟩

theorem PathToLeaf.length_le {path : List Expr} (h : PathToLeaf e path) :
    path.length ≤ e.height := by
  induction h with
  | leaf h => exact Nat.le_of_eq (height_of_leaf h).symm
  | child h _ ih => exact Nat.succ_le_of_lt (Nat.lt_of_le_of_lt ih (height_lt_of_mem_children h))

theorem exists_pathToLeaf {n : Nat} (h : e.height = n) :
    ∃ path, PathToLeaf e path ∧ path.length = n := by
  induction n generalizing e with
  | zero =>
      have hpos := e.height_pos
      omega
  | succ n ih =>
      by_cases hleaf : e.children = []
      · refine ⟨[e], .leaf hleaf, ?_⟩
        rw [← h, height_of_leaf hleaf]
        rfl
      · obtain ⟨child, hmem, hheight⟩ := exists_mem_children hleaf
        obtain ⟨path, hpath, hlength⟩ := ih (e := child) (by omega)
        exact ⟨e :: path, .child hmem hpath, congrArg Nat.succ hlength⟩

/-- The height is the number of nodes on the longest way down to a leaf. -/
theorem isGreatest_height (e : Expr) :
    IsGreatest {n | ∃ path, PathToLeaf e path ∧ path.length = n} e.height := by
  refine ⟨exists_pathToLeaf rfl, ?_⟩
  rintro _ ⟨path, hpath, rfl⟩
  exact hpath.length_le

end Paths

end Expr

section Limit

variable {α : Type} {p : Nat → Parser α} {room : List Lexeme → Nat} {toExpr : α → Expr}
  {text : String} {t : α}

theorem toFailure_ne_tooManyLevels (textEnd : Nat) (stop : Stop) :
    stop.toFailure textEnd ≠ .refused ⟨.tooManyLevels, 0⟩ := by
  cases stop <;> intro h <;> cases h

/-- A tree that was read is given out if and only if it is not too high. -/
theorem readText_eq_ok_iff : Parser.readText p room toExpr text = .ok t ↔
    ∃ tokenized, tokenize text = .ok tokenized ∧
      (p (room (lexemes tokenized.tokens))).whole tokenized.tokens = .ok t ∧
        (toExpr t).height ≤ maxHeight := by
  cases htext : tokenize text with
  | error stray => simp [Parser.readText, htext]
  | ok tokenized =>
      cases hwhole : (p (room (lexemes tokenized.tokens))).whole tokenized.tokens with
      | error stop => simp [Parser.readText, htext, hwhole]
      | ok value =>
          simp only [Parser.readText, htext, hwhole, Expr.depth_eq_height, Except.ok.injEq,
            exists_eq_left']
          constructor
          · intro h
            split at h
            · next hlow =>
                cases h
                exact ⟨rfl, hlow⟩
            · cases h
          · rintro ⟨rfl, hlow⟩
            exact if_pos hlow

/-- A text is refused for its levels if and only if it was read to a tree that is too high. -/
theorem readText_eq_tooManyLevels_iff :
    Parser.readText p room toExpr text = .error (.refused ⟨.tooManyLevels, 0⟩) ↔
      ∃ tokenized t, tokenize text = .ok tokenized ∧
        (p (room (lexemes tokenized.tokens))).whole tokenized.tokens = .ok t ∧
          maxHeight < (toExpr t).height := by
  cases htext : tokenize text with
  | error stray => simp [Parser.readText, htext]
  | ok tokenized =>
      cases hwhole : (p (room (lexemes tokenized.tokens))).whole tokenized.tokens with
      | error stop =>
          simp [Parser.readText, htext, hwhole, toFailure_ne_tooManyLevels]
      | ok value =>
          simp only [Parser.readText, htext, hwhole, Expr.depth_eq_height, Except.ok.injEq,
            exists_and_left, exists_eq_left']
          by_cases hlow : (toExpr value).height ≤ maxHeight
          · simp [hlow]
          · simp [hlow, Nat.lt_of_not_le hlow]

end Limit

open DateRules.Expr in
/-- Whatever the order in which the subtrees of a tree are visited, the walk ends after as many
visits as the tree has nodes, and the deepest level that it has met is the height. The walk
with the stack is one of these. The height is the number of nodes on the longest way down to a
leaf. A tree that was read from a text, on any stack, is given out if it has at most 128
levels, and is refused for them if it has more. -/
theorem depth_counts_levels (e : Expr) :
    (∀ (n : Nat) (s : Survey), Survey.Visits n (Survey.start e) s →
      n ≤ e.size ∧ (s.pending = [] ↔ n = e.size) ∧ (s.pending = [] → s.deepest = e.height) ∧
        (s.pending ≠ [] → ∃ t, Survey.Visit s t)) ∧
    (∀ (deepest level : Nat) (top : Expr) (stack : List (Expr × Nat)),
      Survey.Visit ⟨deepest, stack ++ [(top, level)]⟩
        ⟨max deepest level, stack ++ top.children.map fun child => (child, level + 1)⟩) ∧
    Survey.Visits e.size (Survey.start e) ⟨e.depth, []⟩ ∧
    IsGreatest {n | ∃ path, PathToLeaf e path ∧ path.length = n} e.depth ∧
    (e.children = [] → e.depth = 1) ∧
    (∀ operand, e.children = [operand] → e.depth = operand.depth + 1) ∧
    (∀ l r, e.children = [l, r] → e.depth = max l.depth r.depth + 1) ∧
    ∀ (stack : CallStack) (text : String),
      (∀ t, BoolExpr.read stack text = .ok t ↔ ∃ tokenized, tokenize text = .ok tokenized ∧
        (Parser.boolExpr (stack.nesting .bool (lexemes tokenized.tokens))).whole
          tokenized.tokens = .ok t ∧ t.height ≤ 128) ∧
      (BoolExpr.read stack text = .error (.refused ⟨.tooManyLevels, 0⟩) ↔
        ∃ tokenized t, tokenize text = .ok tokenized ∧
          (Parser.boolExpr (stack.nesting .bool (lexemes tokenized.tokens))).whole
            tokenized.tokens = .ok t ∧ 128 < t.height) ∧
      (∀ t, IntExpr.read stack text = .ok t ↔ ∃ tokenized, tokenize text = .ok tokenized ∧
        (Parser.intExpr (stack.nesting .int (lexemes tokenized.tokens))).whole
          tokenized.tokens = .ok t ∧ t.height ≤ 128) ∧
      (IntExpr.read stack text = .error (.refused ⟨.tooManyLevels, 0⟩) ↔
        ∃ tokenized t, tokenize text = .ok tokenized ∧
          (Parser.intExpr (stack.nesting .int (lexemes tokenized.tokens))).whole
            tokenized.tokens = .ok t ∧ 128 < t.height) := by
  simp only [depth_eq_height]
  refine ⟨?_, Survey.visit_last, ?_, isGreatest_height e, height_of_leaf,
    fun _ => height_of_operand, fun _ _ => height_of_binary, ?_⟩
  · intro n s h
    have hsize := h.pendingSize_eq
    rw [Survey.pendingSize_start] at hsize
    exact ⟨by omega, h.pending_eq_nil_iff, h.deepest_eq, Survey.exists_visit⟩
  · have hwalk := Survey.visits_deepestLevel 0 [(e, 1)]
    rwa [← depth, depth_eq_height] at hwalk
  · intro stack text
    exact ⟨fun t => readText_eq_ok_iff, readText_eq_tooManyLevels_iff,
      fun t => readText_eq_ok_iff, readText_eq_tooManyLevels_iff⟩

end DateRules
