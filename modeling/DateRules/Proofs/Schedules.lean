import DateRules.Proofs.Expr.Outermost
import DateRules.Proofs.Search
import Mathlib.Algebra.Ring.Divisibility.Basic
import Mathlib.Data.List.Chain

/-!
# Periodic schedules

An expression recurs if it is true of the days whose distance to some day is a multiple of
`n` (`Recurs`). There is one such day among any `n` days (`Recurs.existsUnique`), so that in
a search each day that is found is `n` days after the one before (`Recurs.isChain`).

A remainder of the day count makes such an expression. Remainders are rounded down, also
before day 0 of the count, where it is negative. `periodic_schedule` says this of two ways
to write a schedule, from their texts on.
-/

namespace DateRules

/-- An expression is true of the days from which the distance to day `k` of the day count is
a multiple of `n`. -/
def Recurs (e : BoolExpr) (n : Nat) (k : Int) : Prop :=
  ∀ d : Date, e.eval d = some true ↔ (n : Int) ∣ d.modifiedJulianDay - k

theorem exists_ordinal_eq_add {d f : Date} {days : Nat} (h : d.ordinal + days ≤ f.ordinal) :
    ∃ m : Date, m.ordinal = d.ordinal + days := by
  have hpos := d.ordinal_mem.1
  have hlast := f.ordinal_mem.2
  exact ⟨_, Date.ordinal_ofOrdinal ⟨by omega, by omega⟩⟩

/-- Of the days in order none lies between two that follow each other. -/
theorem not_between {before after : List Date} {d f m : Date}
    (hordered : (before ++ d :: f :: after).Pairwise fun d f => d.ordinal < f.ordinal)
    (hm : m ∈ before ++ d :: f :: after) : m.ordinal ≤ d.ordinal ∨ f.ordinal ≤ m.ordinal := by
  obtain ⟨-, hlater, hearlier⟩ := List.pairwise_append.mp hordered
  obtain ⟨-, hafter⟩ := List.pairwise_cons.mp hlater
  rcases List.mem_append.mp hm with hmem | hmem
  · exact .inl (Nat.le_of_lt (hearlier m hmem d List.mem_cons_self))
  · rcases List.mem_cons.mp hmem with rfl | hmem
    · exact .inl (Nat.le_refl _)
    · rcases List.mem_cons.mp hmem with rfl | hmem
      · exact .inr (Nat.le_refl _)
      · exact .inr (Nat.le_of_lt ((List.pairwise_cons.mp hafter).1 m hmem))

/-- One of any `n` numbers in a row is a multiple of `n` away from `k`. -/
theorem exists_lt_dvd {n : Nat} (hn : 1 ≤ n) (x k : Int) :
    ∃ m : Nat, m < n ∧ (n : Int) ∣ x + m - k := by
  have hnonneg := Int.emod_nonneg (k - x) (by omega : (n : Int) ≠ 0)
  have hlt := Int.emod_lt_of_pos (k - x) (by omega : (0 : Int) < n)
  refine ⟨((k - x) % n).toNat, by omega, ?_⟩
  have hdifference : x + ((k - x) % n).toNat - k = (k - x) % n - (k - x) := by omega
  rw [hdifference]
  exact Int.dvd_emod_sub_self

namespace Recurs

variable {e : BoolExpr} {n : Nat} {k : Int} {d f : Date}

theorem holds_eq (h : Recurs e n k) (d : Date) :
    e.holds d = decide ((n : Int) ∣ d.modifiedJulianDay - k) := by
  rw [Bool.eq_iff_iff, BoolExpr.holds_eq_true_iff, h d, decide_eq_true_eq]

theorem findWithin_eq (h : Recurs e n k) (start : Date) (count : Int) :
    findWithin start count e =
      (window start count).filter fun d => (n : Int) ∣ d.modifiedJulianDay - k :=
  List.filter_congr fun d _ => h.holds_eq d

/-- From a day on which the expression is true it is true on those a multiple of `n` away. -/
theorem eval_iff (h : Recurs e n k) (hd : e.eval d = some true) :
    e.eval f = some true ↔ (n : Int) ∣ (f.ordinal : Int) - d.ordinal := by
  have hdifference : (f.ordinal : Int) - d.ordinal =
      (f.modifiedJulianDay - k) - (d.modifiedJulianDay - k) := by
    simp only [Date.modifiedJulianDay]
    omega
  rw [h f, hdifference, dvd_sub_left ((h d).mp hd)]

/-- Between two days that a search finds it finds all that are a multiple of `n` away. -/
theorem mem_findWithin_of_dvd (h : Recurs e n k) {start m : Date} {count : Int}
    (hd : d ∈ findWithin start count e) (hf : f ∈ findWithin start count e)
    (hbounds : d.ordinal ≤ m.ordinal ∧ m.ordinal ≤ f.ordinal)
    (hmultiple : (n : Int) ∣ (m.ordinal : Int) - d.ordinal) :
    m ∈ findWithin start count e := by
  obtain ⟨hstart, -, hholds⟩ := mem_findWithin.mp hd
  obtain ⟨-, hend, -⟩ := mem_findWithin.mp hf
  rw [Date.le_iff_ordinal_le] at hstart
  refine mem_findWithin.mpr ⟨Date.le_iff_ordinal_le.mpr ?_, ?_, (h.eval_iff hholds).mpr hmultiple⟩
  · omega
  · omega

/-- The days that a search finds are `n` days apart. -/
theorem isChain (h : Recurs e n k) (hn : 1 ≤ n) (start : Date) (count : Int) :
    (findWithin start count e).IsChain (DaysLater · n ·) := by
  rw [List.isChain_iff_forall_rel_of_append_cons_cons]
  intro d f before after hfound
  have hordered := findWithin_pairwise start count e
  have hd : d ∈ findWithin start count e := by simp [hfound]
  have hf : f ∈ findWithin start count e := by simp [hfound]
  rw [hfound] at hordered
  have hlt : d.ordinal < f.ordinal :=
    (List.pairwise_cons.mp (List.pairwise_append.mp hordered).2.1).1 f List.mem_cons_self
  have hmultiple := (h.eval_iff (mem_findWithin.mp hd).2.2).mp (mem_findWithin.mp hf).2.2
  have hle := Int.le_of_dvd (by omega) hmultiple
  -- The day that is `n` days after `d` is found, too, and is not before `f`.
  obtain ⟨m, hm⟩ := exists_ordinal_eq_add (by omega : d.ordinal + n ≤ f.ordinal)
  have hmem := h.mem_findWithin_of_dvd hd hf (m := m) ⟨by omega, by omega⟩ ⟨1, by omega⟩
  rw [daysLater_iff]
  rcases not_between hordered (hfound ▸ hmem) with hbefore | hafter
  · omega
  · omega

/-- Among any `n` days there is one on which the expression is true. -/
theorem existsUnique (h : Recurs e n k) (hn : 1 ≤ n) {first final : Date}
    (hdays : DaysLater first (n - 1) final) :
    ∃! d, (first ≤ d ∧ d ≤ final) ∧ e.eval d = some true := by
  rw [daysLater_iff] at hdays
  simp only [Date.le_iff_ordinal_le]
  obtain ⟨days, hlt, hmultiple⟩ := exists_lt_dvd hn first.modifiedJulianDay k
  obtain ⟨m, hm⟩ := exists_ordinal_eq_add (by omega : first.ordinal + days ≤ final.ordinal)
  have hholds : e.eval m = some true := by
    have hday : m.modifiedJulianDay = first.modifiedJulianDay + days := by
      rw [Date.modifiedJulianDay, Date.modifiedJulianDay, hm]
      omega
    rw [h, hday]
    exact hmultiple
  refine ⟨m, ⟨by omega, hholds⟩, ?_⟩
  rintro d ⟨hbounds, hd⟩
  have hdistance := (h.eval_iff hholds).mp hd
  have hzero := Int.eq_zero_of_dvd_of_natAbs_lt_natAbs hdistance (by omega)
  exact Date.ordinal_injective (by omega)

end Recurs

namespace BoolExpr

variable {n k : Nat}

/-- The day count leaves the remainder that `k` leaves. -/
def sameRemainder (n k : Nat) : BoolExpr :=
  .compare .equal (.arith .modulo (.quantity .julian) (.literal n))
    (.arith .modulo (.literal k) (.literal n))

/-- The day count less `k` leaves no remainder. -/
def noRemainder (n k : Nat) : BoolExpr :=
  .compare .equal
    (.arith .modulo (.arith .subtract (.quantity .julian) (.literal k)) (.literal n)) (.literal 0)

theorem modulo_apply (hn : 1 ≤ n) (x : Int) : Arithmetic.modulo.apply x n = some (x % n) := by
  have hne : (n : Int) ≠ 0 := by omega
  rw [Arithmetic.apply, if_neg hne, Int.fmod_eq_emod_of_nonneg _ (Int.natCast_nonneg n)]

theorem recurs_sameRemainder (hn : 1 ≤ n) (k : Nat) : Recurs (sameRemainder n k) n k := by
  intro d
  simp only [sameRemainder, eval, IntExpr.eval, modulo_apply hn, Quantity.value,
    Comparison.apply, Option.some_inj, beq_iff_eq]
  rw [Int.emod_eq_emod_iff_emod_sub_eq_zero, Int.dvd_iff_emod_eq_zero]

theorem recurs_noRemainder (hn : 1 ≤ n) (k : Nat) : Recurs (noRemainder n k) n k := by
  intro d
  have hsubtract : ∀ x y, Arithmetic.subtract.apply x y = some (x - y) := fun _ _ => rfl
  simp only [noRemainder, eval, IntExpr.eval, hsubtract, modulo_apply hn, Quantity.value,
    Comparison.apply, Option.some_inj, beq_iff_eq]
  rw [Int.dvd_iff_emod_eq_zero]

theorem writable_natCast (h : (toString n).length ≤ 4300) : Writable n := by
  refine ⟨Int.natCast_nonneg n, ?_⟩
  rwa [Nat.toString_eq_ofList_toDigits, String.length_ofList] at h

theorem renderBare_sameRemainder (n k : Nat) :
    (sameRemainder n k).renderBare = s!"julian % {n} == {k} % {n}" := by
  have hliteral : ∀ m : Nat, toString (m : Int) = toString m := fun _ => rfl
  have htext : ∀ s : String, toString s = s := fun _ => rfl
  simp [sameRemainder, renderBare, IntExpr.renderBare, IntExpr.render, Arithmetic.symbol,
    Comparison.symbol, Quantity.keyword, String.append_assoc, hliteral, htext]

theorem renderBare_noRemainder (n k : Nat) :
    (noRemainder n k).renderBare = s!"(julian - {k}) % {n} == 0" := by
  have hliteral : ∀ m : Nat, toString (m : Int) = toString m := fun _ => rfl
  have hzero : toString (0 : Int) = "0" := rfl
  have htext : ∀ s : String, toString s = s := fun _ => rfl
  simp [noRemainder, renderBare, IntExpr.renderBare, IntExpr.render, renderBinary,
    Arithmetic.symbol, Comparison.symbol, Quantity.keyword, String.append_assoc, hliteral, htext,
    hzero]

theorem parse?_sameRemainder {stack : CallStack} (hn : (toString n).length ≤ 4300)
    (hk : (toString k).length ≤ 4300) :
    BoolExpr.parse? stack s!"julian % {n} == {k} % {n}" = .ok (some (sameRemainder n k)) := by
  rw [← renderBare_sameRemainder]
  refine parse?_renderBare ?_ ?_
  · simp [sameRemainder, literals, IntExpr.literals, writable_natCast hn, writable_natCast hk]
  · simp [sameRemainder, height, IntExpr.height, maxHeight]

theorem parse?_noRemainder {stack : CallStack} (hn : (toString n).length ≤ 4300)
    (hk : (toString k).length ≤ 4300) :
    BoolExpr.parse? stack s!"(julian - {k}) % {n} == 0" = .ok (some (noRemainder n k)) := by
  have hzero : Writable 0 := ⟨by decide, by decide⟩
  rw [← renderBare_noRemainder]
  refine parse?_renderBare ?_ ?_
  · simp [noRemainder, literals, IntExpr.literals, writable_natCast hn, writable_natCast hk, hzero]
  · simp [noRemainder, height, IntExpr.height, maxHeight]

end BoolExpr

open BoolExpr

/-- Both ways to write that every `n`-th day is meant are parsed, and a search with either
finds the days of the window whose distance to day `k` of the day count is a multiple of `n`.
These are `n` days apart, and there is one among any `n` days. -/
theorem periodic_schedule (stack : CallStack) {n k : Nat} (hpos : 1 ≤ n)
    (hn : (toString n).length ≤ 4300) (hk : (toString k).length ≤ 4300) :
    ∃ e e', BoolExpr.parse? stack s!"julian % {n} == {k} % {n}" = .ok (some e) ∧
      BoolExpr.parse? stack s!"(julian - {k}) % {n} == 0" = .ok (some e') ∧
      (∀ start count,
        findWithin start count e =
          (window start count).filter (fun d => (n : Int) ∣ d.modifiedJulianDay - k) ∧
        findWithin start count e' = findWithin start count e ∧
        (findWithin start count e).IsChain (DaysLater · n ·)) ∧
      ∀ first final, DaysLater first (n - 1) final →
        ∃! d, (first ≤ d ∧ d ≤ final) ∧ e.eval d = some true := by
  have hrecurs := recurs_sameRemainder hpos k
  have hrecurs' := recurs_noRemainder hpos k
  refine ⟨_, _, parse?_sameRemainder hn hk, parse?_noRemainder hn hk, ?_, ?_⟩
  · intro start count
    refine ⟨hrecurs.findWithin_eq start count, ?_, hrecurs.isChain hpos start count⟩
    rw [hrecurs.findWithin_eq, hrecurs'.findWithin_eq]
  · intro first final hdays
    exact hrecurs.existsUnique hpos hdays

/-- Every fourteenth day, found before and after the day on which the count begins. -/
theorem periodic_schedule_epoch :
    let start : Date := ⟨1858, 11, 1, by decide, by decide, by decide⟩
    let before : Date := ⟨1858, 11, 6, by decide, by decide, by decide⟩
    let after : Date := ⟨1858, 11, 20, by decide, by decide, by decide⟩
    ∃ e, BoolExpr.parse? .least "julian % 14 == 3 % 14" = .ok (some e) ∧
      findWithin start 30 e = [before, after] ∧ DaysLater before 14 after := by
  intro start before after
  obtain ⟨e, e', hparse, -, hfound, -⟩ :=
    periodic_schedule .least (n := 14) (k := 3) (by decide) (by decide) (by decide)
  obtain ⟨hdays, -, hchain⟩ := hfound start 30
  have hdays' : findWithin start 30 e = [before, after] := by
    rw [hdays]
    decide +kernel
  rw [hdays'] at hchain
  exact ⟨e, hparse, hdays', List.isChain_pair.mp hchain⟩

end DateRules
