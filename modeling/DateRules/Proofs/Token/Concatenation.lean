import DateRules.Proofs.Token.Munch

/-!
# Texts put together

A text that is put after another one is split off from it, if it begins with a character
that is part of no number and no keyword and joins no lexeme of the text before it
(`Splits.after`). Only the last lexeme could go on into what follows: a lexeme with such a
character has no more than two characters.
-/

namespace DateRules

open Text

theorem isAlphanum_of_isBlank {c : Char} (h : isBlank c) : c.isAlphanum = false := by
  have halphanum : c.isAlphanum =
      (decide ('A'.val ≤ c.val ∧ c.val ≤ 'Z'.val) || 'a'.val ≤ c.val && c.val ≤ 'z'.val ||
        '0'.val ≤ c.val && c.val ≤ '9'.val) := rfl
  have hcode : c.val.toNat = c.toNat := rfl
  simp only [isBlank, isWhiteSpace, Bool.or_eq_true, Bool.and_eq_true, decide_eq_true_eq,
    beq_iff_eq] at h
  simp only [halphanum, Bool.or_eq_false_iff, Bool.and_eq_false_iff, decide_eq_false_iff_not,
    UInt32.le_iff_toNat_le, hcode, Char.reduceVal, UInt32.reduceToNat]
  omega

namespace Lexeme

/-- Lexemes with other characters than letters and digits are short. -/
theorem Spelled.length_le_two {l : Lexeme} (h : l.Spelled) {c : Char} (hc : c ∈ l.chars)
    (hother : c.isAlphanum = false) : l.chars.length ≤ 2 := by
  cases l with
  | number digits =>
      have hdigit : c.isDigit = true := h.2 c hc
      rw [Char.isAlphanum, hdigit, Bool.or_true] at hother
      cases hother
  | keyword k =>
      have hall : ∀ k ∈ Keyword.all, k.text.toList.all Char.isAlphanum := by decide +kernel
      rw [List.all_eq_true.mp (hall k k.mem_all) c hc] at hother
      cases hother
  | operator o => cases o <;> decide
  | opening => decide
  | closing => decide

/-- A text begins with no letter and no digit. -/
def Breaks (rest : List Char) : Prop := ∀ c ∈ rest.head?, c.isAlphanum = false

variable {l : Lexeme} {tail rest : List Char}

theorem breaks_blanks {blanks : List Char} (hblank : ∀ c ∈ blanks, isBlank c)
    (h : Breaks rest) : Breaks (blanks ++ rest) := by
  cases blanks with
  | nil => exact h
  | cons c blanks =>
      rintro d ⟨⟩
      exact isAlphanum_of_isBlank (hblank c List.mem_cons_self)

/-- The longest lexeme that begins a text is the longest one also if something is put after
the text that does not join it. -/
theorem first?_append_tail (h : first? (l.chars ++ tail) = some l) (hbreaks : Breaks rest)
    (hapart : l.Apart rest) : first? (l.chars ++ (tail ++ rest)) = some l := by
  obtain ⟨hspelled, -, hlongest⟩ := first?_eq_some_iff.mp h
  cases tail with
  | nil => exact first?_append hspelled hapart
  | cons d tail =>
      refine first?_eq_some_iff.mpr ⟨hspelled, List.prefix_append _ _, ?_⟩
      intro m hm hbegins
      rw [← List.append_assoc] at hbegins
      rcases Nat.le_total m.chars.length (l.chars ++ d :: tail).length with hle | hge
      · exact hlongest m hm (List.prefix_of_prefix_length_le hbegins (List.prefix_append _ _) hle)
      · -- The lexeme would go on into what follows, and be too long for that.
        obtain ⟨s, hs⟩ := List.prefix_of_prefix_length_le (List.prefix_append _ rest) hbegins hge
        cases s with
        | nil =>
            rw [List.append_nil] at hs
            exact hlongest m hm (hs ▸ List.prefix_refl _)
        | cons c s =>
            rw [← hs, List.prefix_append_right_inj] at hbegins
            obtain ⟨after, rfl⟩ := hbegins
            have hmem : c ∈ m.chars := hs ▸ List.mem_append_right _ List.mem_cons_self
            have hshort := hm.length_le_two hmem (hbreaks c rfl)
            have hpos := List.length_pos_iff.mpr (first?_eq_some h).1
            rw [← hs] at hshort
            simp only [List.length_append, List.length_cons] at hshort
            omega

end Lexeme

section Splitting

variable {rest cs : List Char} {w : List Lexeme} {position : Nat} {t : Tokenized}

theorem Splits.blanks {blanks : List Char} (hblank : ∀ c ∈ blanks, isBlank c)
    (h : Splits rest w) : Splits (blanks ++ rest) w := by
  induction blanks with
  | nil => exact h
  | cons c blanks ih =>
      obtain ⟨hc, hblanks⟩ := List.forall_mem_cons.mp hblank
      exact (ih hblanks).blank hc

/-- A text that follows another one is split off from it, if it does not join the lexemes
before it. -/
theorem Splits.after (ht : tokenizeFrom position cs = .ok t) (hbreaks : Lexeme.Breaks rest)
    (hapart : ∀ l ∈ lexemes t.tokens, l.Apart rest) (h : Splits rest w) :
    Splits (cs ++ rest) (lexemes t.tokens ++ w) := by
  fun_induction tokenizeFrom position cs generalizing t with
  | case1 =>
      cases ht
      exact h
  | case2 position c cs hblank ih => exact (ih ht hapart).blank hblank
  | case3 => cases ht
  | case4 position c cs hblank l hfirst _ found hfound ih =>
      cases ht
      obtain ⟨-, tail, htail⟩ := Lexeme.first?_eq_some hfirst
      rw [← htail] at hfirst hfound ih ⊢
      rw [List.drop_left] at hfound ih
      obtain ⟨hl, hrest⟩ := List.forall_mem_cons.mp hapart
      rw [List.append_assoc]
      exact Splits.of_first? (Lexeme.first?_append_tail hfirst hbreaks hl) (ih hfound hrest)
  | case5 => cases ht

/-- A text begins with a blank or with its first lexeme. -/
theorem head_of_tokenizeFrom {c : Char} (h : tokenizeFrom position (c :: cs) = .ok t) :
    isBlank c ∨ ∃ l v, lexemes t.tokens = l :: v ∧ l.chars.head? = some c := by
  unfold tokenizeFrom at h
  split at h
  · next hblank => exact .inl hblank
  · split at h
    · cases h
    · next l hfirst =>
        obtain ⟨hne, hbegins⟩ := Lexeme.first?_eq_some hfirst
        obtain ⟨d, ds, hchars⟩ := List.exists_cons_of_ne_nil hne
        rw [hchars] at hbegins
        obtain ⟨rfl, -⟩ := List.cons_prefix_cons.mp hbegins
        split at h
        · cases h
          exact .inr ⟨l, _, rfl, by rw [hchars, List.head?_cons]⟩
        · cases h

end Splitting

end DateRules
