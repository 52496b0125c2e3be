import DateRules.Proofs.Expr.RoundTrip

/-!
# Texts without the outermost parentheses

Rendering puts parentheses around every operator with its operands. `IntExpr.renderBare`
and `BoolExpr.renderBare` leave out those around the whole text, and a comparison has none
around its sides either. The text is parsed to the same tree (`BoolExpr.parse?_renderBare`).
-/

namespace DateRules

open Grammar

namespace IntExpr

/-- The source text of an integer expression, without parentheses around it. -/
def renderBare : IntExpr → String
  | .arith op l r => l.render ++ " " ++ op.symbol ++ " " ++ r.render
  | t => t.render

/-- The lexemes of that text. -/
def bareSpelling : IntExpr → List Lexeme
  | .arith op l r => l.spelling ++ .operator op.operator :: r.spelling
  | t => t.spelling

variable {t : IntExpr}

/-- What is written without parentheses is the same expression. -/
theorem spells_bare (h : ∀ v ∈ t.literals, 0 ≤ v) : Spells t.renderBare t.bareSpelling := by
  cases t with
  | literal v => exact spells _ h
  | quantity q => exact spells _ h
  | negate e => exact spells _ h
  | arith op l r =>
      have hl := l.spells fun v hv => h v (List.mem_append_left _ hv)
      have hr := r.spells fun v hv => h v (List.mem_append_right _ hv)
      exact hl.between op.text_operator hr

theorem bareSpelling_derives (h : ∀ v ∈ t.literals, 0 ≤ v) : IntSentence t.bareSpelling t := by
  cases t with
  | literal v => exact spelling_derives _ h
  | quantity q => exact spelling_derives _ h
  | negate e => exact spelling_derives _ h
  | arith op l r =>
      have hl := l.spelling_operand fun v hv => h v (List.mem_append_left _ hv)
      have hr := r.spelling_operand fun v hv => h v (List.mem_append_right _ hv)
      exact op.derives hl.1 hr.1

theorem fits_bareSpelling (h : ∀ v ∈ t.literals, Writable v) : Fits t.height t.bareSpelling := by
  cases t with
  | literal v => exact fits_spelling _ h
  | quantity q => exact fits_spelling _ h
  | negate e => exact fits_spelling _ h
  | arith op l r =>
      have hl := l.fits_spelling fun v hv => h v (List.mem_append_left _ hv)
      have hr := r.fits_spelling fun v hv => h v (List.mem_append_right _ hv)
      exact (hl.between hr).mono (Nat.le_succ _)

end IntExpr

namespace BoolExpr

/-- The source text of a boolean expression, without parentheses around it. -/
def renderBare : BoolExpr → String
  | .connect op l r => l.render ++ " " ++ op.symbol ++ " " ++ r.render
  | .compare op l r => l.renderBare ++ " " ++ op.symbol ++ " " ++ r.renderBare
  | t => t.render

def bareSpelling : BoolExpr → List Lexeme
  | .connect op l r => l.spelling ++ .operator op.operator :: r.spelling
  | .compare op l r => l.bareSpelling ++ .operator op.operator :: r.bareSpelling
  | t => t.spelling

variable {t : BoolExpr}

theorem spells_bare (h : ∀ v ∈ t.literals, 0 ≤ v) : Spells t.renderBare t.bareSpelling := by
  cases t with
  | literal value => exact spells _ h
  | statement s => exact spells _ h
  | not e => exact spells _ h
  | connect op l r =>
      have hl := l.spells fun v hv => h v (List.mem_append_left _ hv)
      have hr := r.spells fun v hv => h v (List.mem_append_right _ hv)
      exact hl.between op.text_operator hr
  | compare op l r =>
      have hl := IntExpr.spells_bare fun v hv => h v (List.mem_append_left _ hv)
      have hr := IntExpr.spells_bare fun v hv => h v (List.mem_append_right _ hv)
      exact hl.between op.text_operator hr

theorem bareSpelling_derives (h : ∀ v ∈ t.literals, 0 ≤ v) : BoolSentence t.bareSpelling t := by
  cases t with
  | literal value => exact spelling_derives _ h
  | statement s => exact spelling_derives _ h
  | not e => exact spelling_derives _ h
  | connect op l r =>
      have hl := l.spelling_operand fun v hv => h v (List.mem_append_left _ hv)
      have hr := r.spelling_operand fun v hv => h v (List.mem_append_right _ hv)
      exact op.derives hl.1 hr.1
  | compare op l r =>
      have hl := IntExpr.bareSpelling_derives fun v hv => h v (List.mem_append_left _ hv)
      have hr := IntExpr.bareSpelling_derives fun v hv => h v (List.mem_append_right _ hv)
      exact .single (.bare (.comparison (op.derives hl hr)))

theorem fits_bareSpelling (h : ∀ v ∈ t.literals, Writable v) : Fits t.height t.bareSpelling := by
  cases t with
  | literal value => exact fits_spelling _ h
  | statement s => exact fits_spelling _ h
  | not e => exact fits_spelling _ h
  | connect op l r =>
      have hl := l.fits_spelling fun v hv => h v (List.mem_append_left _ hv)
      have hr := r.fits_spelling fun v hv => h v (List.mem_append_right _ hv)
      exact (hl.between hr).mono (Nat.le_succ _)
  | compare op l r =>
      have hl := IntExpr.fits_bareSpelling fun v hv => h v (List.mem_append_left _ hv)
      have hr := IntExpr.fits_bareSpelling fun v hv => h v (List.mem_append_right _ hv)
      exact (hl.between hr).mono (Nat.le_succ _)

/-- Without the outermost parentheses a text is parsed to the same tree. -/
theorem parse?_renderBare {stack : CallStack} (h : ∀ v ∈ t.literals, Writable v)
    (hheight : t.height ≤ maxHeight) :
    BoolExpr.parse? stack t.renderBare = .ok (some t) := by
  have hnonneg := fun v hv => (h v hv).nonneg
  exact (spells_bare hnonneg).accepted reads_boolExpr
    (bareSpelling_derives hnonneg) (fits_bareSpelling h) hheight

end BoolExpr

end DateRules
