import Mathlib.Data.Rat.Floor
import Mathlib.Tactic.Linarith
import DateRules.Expr.Describe
import DateRules.Proofs.Expr.Absence

/-!
# What the value of an expression is

`IntExpr.meaning` and `BoolExpr.meaning` read expressions as in mathematics:
quotients are rational quotients rounded down, comparisons are those of the integers
and connectives are those of propositions. They do not look at absent values, and
where an expression has a value it agrees with them (`IntExpr.meaning_of_eval`,
`BoolExpr.meaning_of_eval`).

`Division` is the law of quotients and remainders; a pair of these is unique.
-/

namespace DateRules

/-- Dividing `a` by `b` gives the quotient `q` and the remainder `m`, where the
remainder has the sign of the divisor. -/
structure Division (a b q m : Int) : Prop where
  equation : a = q * b + m
  bound : |m| < |b|
  sign : 0 ≤ m ∧ 0 < b ∨ m ≤ 0 ∧ b < 0

theorem division_fdiv_fmod (a : Int) {b : Int} (hb : b ≠ 0) :
    Division a b (a.fdiv b) (a.fmod b) := by
  have hequation := Int.fdiv_mul_add_fmod a b
  have hnonneg := Int.emod_nonneg a hb
  have hlt := Int.emod_lt_abs a hb
  rcases Int.lt_or_gt_of_ne hb with hneg | hpos
  · have hfmod : a.fmod b = a % b + if b ∣ a then 0 else b := by
      rw [Int.fmod_eq_emod]
      simp [Int.not_le.mpr hneg]
    rw [abs_of_neg hneg] at hlt
    have hle : a.fmod b ≤ 0 ∧ -a.fmod b < -b := by
      rw [hfmod]
      split
      · next hdvd =>
          rw [Int.emod_eq_zero_of_dvd hdvd]
          omega
      · next hdvd =>
          have hne := mt Int.dvd_of_emod_eq_zero hdvd
          omega
    refine ⟨hequation.symm, ?_, .inr ⟨hle.1, hneg⟩⟩
    rw [abs_of_nonpos hle.1, abs_of_neg hneg]
    exact hle.2
  · rw [abs_of_pos hpos] at hlt
    have hfmod : a.fmod b = a % b := Int.fmod_eq_emod_of_nonneg a (Int.le_of_lt hpos)
    refine ⟨hequation.symm, ?_, .inl ⟨hfmod ▸ hnonneg, hpos⟩⟩
    rw [hfmod, abs_of_nonneg hnonneg, abs_of_pos hpos]
    exact hlt

/-- The quotient is the rational quotient rounded down. -/
theorem Division.floor_eq {a b q m : Int} (h : Division a b q m) : ⌊(a : ℚ) / b⌋ = q := by
  obtain ⟨hequation, hbound, hsign⟩ := h
  have hrational : (a : ℚ) = q * b + m := by exact_mod_cast hequation
  rw [Int.floor_eq_iff]
  rcases hsign with ⟨hm, hb⟩ | ⟨hm, hb⟩
  · rw [abs_of_nonneg hm, abs_of_pos hb] at hbound
    have hb' : (0 : ℚ) < b := by exact_mod_cast hb
    have hm' : (0 : ℚ) ≤ m := by exact_mod_cast hm
    have hbound' : (m : ℚ) < b := by exact_mod_cast hbound
    rw [le_div_iff₀ hb', div_lt_iff₀ hb', hrational]
    constructor <;> linarith
  · rw [abs_of_nonpos hm, abs_of_neg hb] at hbound
    have hb' : (b : ℚ) < 0 := by exact_mod_cast hb
    have hm' : (m : ℚ) ≤ 0 := by exact_mod_cast hm
    have hbound' : (b : ℚ) < m := by exact_mod_cast Int.lt_of_neg_lt_neg hbound
    rw [le_div_iff_of_neg hb', div_lt_iff_of_neg hb', hrational]
    constructor <;> linarith

/-- The result of an operator in mathematics. -/
def Arithmetic.meaning (op : Arithmetic) (a b : Int) : Int :=
  match op with
  | add => a + b
  | subtract => a - b
  | multiply => a * b
  | divide => ⌊(a : ℚ) / b⌋
  | modulo => a - ⌊(a : ℚ) / b⌋ * b

def Connective.meaning (op : Connective) (p q : Prop) : Prop :=
  match op with
  | and => p ∧ q
  | or => p ∨ q
  | same => p ↔ q

def Comparison.meaning (op : Comparison) (a b : Int) : Prop :=
  match op with
  | equal => a = b
  | greater => a > b
  | less => a < b

/-- The number that an expression denotes on a date. -/
def IntExpr.meaning (d : Date) : IntExpr → Int
  | .literal value => value
  | .quantity q => q.value d
  | .negate e => - e.meaning d
  | .arith op l r => op.meaning (l.meaning d) (r.meaning d)

/-- What an expression says of a date. -/
def BoolExpr.meaning (d : Date) : BoolExpr → Prop
  | .literal value => value = true
  | .statement s => s.holds d = true
  | .not e => ¬ e.meaning d
  | .connect op l r => op.meaning (l.meaning d) (r.meaning d)
  | .compare op l r => op.meaning (l.meaning d) (r.meaning d)

theorem Arithmetic.meaning_of_apply {op : Arithmetic} {a b v : Int}
    (h : op.apply a b = some v) : op.meaning a b = v := by
  have hb : op.IsPartial → b ≠ 0 := by
    intro hop hzero
    rw [apply_eq_none_iff.mpr ⟨hop, hzero⟩] at h
    cases h
  cases op with
  | add => exact Option.some.inj h
  | subtract => exact Option.some.inj h
  | multiply => exact Option.some.inj h
  | divide =>
      have hdivision := division_fdiv_fmod a (hb (.inl rfl))
      rw [apply, if_neg (hb (.inl rfl))] at h
      rw [meaning, hdivision.floor_eq]
      exact Option.some.inj h
  | modulo =>
      have hdivision := division_fdiv_fmod a (hb (.inr rfl))
      rw [apply, if_neg (hb (.inr rfl))] at h
      rw [meaning, hdivision.floor_eq]
      have hequation := hdivision.equation
      have hvalue := Option.some.inj h
      omega

theorem Connective.meaning_iff (op : Connective) {p q : Prop} {a b : Bool}
    (ha : p ↔ a = true) (hb : q ↔ b = true) : op.meaning p q ↔ op.apply a b = true := by
  cases op with
  | and => simp [meaning, apply, ha, hb]
  | or => simp [meaning, apply, ha, hb]
  | same => cases a <;> cases b <;> simp [meaning, apply, ha, hb]

theorem Comparison.meaning_iff (op : Comparison) (a b : Int) :
    op.meaning a b ↔ op.apply a b = true := by
  cases op <;> simp [meaning, apply]

section Agreement

variable {d : Date}

theorem IntExpr.meaning_of_eval {e : IntExpr} {v : Int} (h : e.eval d = some v) :
    e.meaning d = v := by
  induction e generalizing v with
  | literal value => exact Option.some.inj h
  | quantity q => exact Option.some.inj h
  | negate e ih =>
      rw [eval, Option.map_eq_some_iff] at h
      obtain ⟨a, ha, rfl⟩ := h
      rw [meaning, ih ha]
  | arith op l r ihl ihr =>
      rw [eval] at h
      split at h
      · next a b ha hb =>
          rw [meaning, ihl ha, ihr hb]
          exact Arithmetic.meaning_of_apply h
      · cases h

theorem BoolExpr.meaning_of_eval {e : BoolExpr} {b : Bool} (h : e.eval d = some b) :
    e.meaning d ↔ b = true := by
  induction e generalizing b with
  | literal value =>
      cases h
      exact Iff.rfl
  | statement s =>
      cases h
      exact Iff.rfl
  | not e ih =>
      rw [eval, Option.map_eq_some_iff] at h
      obtain ⟨a, ha, rfl⟩ := h
      rw [meaning, ih ha]
      simp
  | connect op l r ihl ihr =>
      rw [eval] at h
      split at h
      · next a a' ha ha' =>
          cases h
          exact op.meaning_iff (ihl ha) (ihr ha')
      · cases h
  | compare op l r =>
      rw [eval] at h
      split at h
      · next a a' ha ha' =>
          cases h
          rw [meaning, IntExpr.meaning_of_eval ha, IntExpr.meaning_of_eval ha']
          exact op.meaning_iff a a'
      · cases h

/-- An expression holds on a date exactly if it has a value there and is true. -/
theorem BoolExpr.holds_iff_meaning (e : BoolExpr) :
    e.holds d = true ↔ ¬ Expr.DividesByZero d (.bool e) ∧ e.meaning d := by
  rw [holds_eq_true_iff, ← e.eval_eq_none_iff]
  cases h : e.eval d with
  | none => simp
  | some b => simp [meaning_of_eval h]

theorem IntExpr.division_of_eval {l r : IntExpr} {a b : Int} (hl : l.eval d = some a)
    (hr : r.eval d = some b) (hb : b ≠ 0) :
    ∃ q m, (arith .divide l r).eval d = some q ∧ (arith .modulo l r).eval d = some m ∧
      Division a b q m := by
  refine ⟨a.fdiv b, a.fmod b, ?_, ?_, division_fdiv_fmod a hb⟩
  · rw [eval, hl, hr]
    exact if_neg hb
  · rw [eval, hl, hr]
    exact if_neg hb

end Agreement

/-- On every date evaluation succeeds. It finds no value exactly where the expression
divides by zero, and else the value that the expression has in mathematics. -/
theorem eval_strict (d : Date) :
    (∀ e : IntExpr, e.attempt d = .ok (e.eval d) ∧ (Expr.int e).evalInt d = .ok (e.eval d)) ∧
    (∀ e : BoolExpr,
      e.attempt d = .ok (e.eval d) ∧ (Expr.bool e).evalBool d = .ok (e.eval d)) ∧
    (∀ e : IntExpr, e.eval d = none ↔ Expr.DividesByZero d (.int e)) ∧
    (∀ e : BoolExpr, e.eval d = none ↔ Expr.DividesByZero d (.bool e)) ∧
    (∀ (e : IntExpr) (v : Int), e.eval d = some v → e.meaning d = v) ∧
    (∀ (e : BoolExpr) (b : Bool), e.eval d = some b → (e.meaning d ↔ b = true)) ∧
    (∀ (l r : IntExpr) (a b : Int), l.eval d = some a → r.eval d = some b → b ≠ 0 →
      ∃ q m, (IntExpr.arith .divide l r).eval d = some q ∧
        (IntExpr.arith .modulo l r).eval d = some m ∧ Division a b q m) ∧
    ∀ e : BoolExpr, e.holds d = true ↔ ¬ Expr.DividesByZero d (.bool e) ∧ e.meaning d := by
  refine ⟨?_, ?_, ?_, ?_, ?_, ?_, ?_, ?_⟩
  · intro e
    exact ⟨e.attempt_eq_ok d, rfl⟩
  · intro e
    exact ⟨e.attempt_eq_ok d, rfl⟩
  · exact IntExpr.eval_eq_none_iff
  · exact BoolExpr.eval_eq_none_iff
  · intro e v h
    exact IntExpr.meaning_of_eval h
  · intro e b h
    exact BoolExpr.meaning_of_eval h
  · intro l r a b hl hr hb
    exact IntExpr.division_of_eval hl hr hb
  · exact BoolExpr.holds_iff_meaning

/-- A quotient that is rounded down and the remainder with the sign of the divisor,
on the last date. -/
theorem eval_strict_negative_divisor :
    ∃ q m : Int, (IntExpr.arith .divide (.literal 7) (.literal (-2))).eval .last = some q ∧
      (IntExpr.arith .modulo (.literal 7) (.literal (-2))).eval .last = some m ∧
      Division 7 (-2) q m ∧
      (IntExpr.arith .divide (.literal 7) (.literal (-2))).meaning .last = -4 ∧
      ((BoolExpr.compare .less (.literal 7) (.literal (-2))).meaning .last ↔ false = true) := by
  obtain ⟨-, -, -, -, hint, hbool, hdivision, -⟩ := eval_strict .last
  obtain ⟨q, m, hq, hm, hlaw⟩ :=
    hdivision (.literal 7) (.literal (-2)) 7 (-2) rfl rfl (by decide)
  exact ⟨q, m, hq, hm, hlaw, hint _ _ rfl, hbool _ _ rfl⟩

end DateRules
