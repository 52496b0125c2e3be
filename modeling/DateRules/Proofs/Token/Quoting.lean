import DateRules.Parser.Diagnosis
import DateRules.Proofs.Token.Spelling

/-!
# Lexemes in messages

A message quotes the lexeme that it is about. All characters of lexemes are plain: they are in
ASCII and neither controls nor quotes nor backslashes, so nothing of a lexeme is escaped.
-/

namespace DateRules

namespace Text

/-- A character shows as itself between single quotes. -/
def Plain (c : Char) : Prop :=
  0x20 ≤ c.toNat ∧ c.toNat < 0x7f ∧ c ≠ '\'' ∧ c ≠ '\\'

instance (c : Char) : Decidable (Plain c) :=
  inferInstanceAs (Decidable (_ ∧ _))

theorem isPrintable_of_ascii {code : Nat} (hlow : 0x20 ≤ code) (hhigh : code < 0x7f) :
    isPrintable code := by
  have hranges : ∀ r ∈ unprintableRanges.toList, r.2 < 0x20 ∨ 0x7f ≤ r.1 := by
    decide +kernel
  rw [isPrintable, ← Array.any_toList, Bool.not_eq_true', List.any_eq_false]
  intro r hr
  have hoff := hranges r hr
  simp only [Bool.and_eq_true, decide_eq_true_eq]
  omega

theorem escape_plain {c : Char} (h : Plain c) :
    escape isPrintable '\'' c.toNat = c.toString := by
  obtain ⟨hlow, hhigh, hquote, hslash⟩ := h
  have hne : ∀ {d : Char}, c ≠ d → (c.toNat == d.toNat) = false := fun hd =>
    beq_eq_false_iff_ne.mpr fun heq => hd (Char.toNat_inj.mp heq)
  have hcontrol : ∀ {d : Char}, d.toNat < 0x20 → c ≠ d := by
    rintro d hd rfl
    omega
  rw [escape, hne hslash, hne hquote, hne (hcontrol (by decide)), hne (hcontrol (by decide)),
    hne (hcontrol (by decide)), isPrintable_of_ascii hlow hhigh, Char.ofNat_toNat]
  rfl

theorem quoteFor_plain {cs : List Char} (h : ∀ c ∈ cs, Plain c) :
    quoteFor (Codes.ofChars cs) = '\'' := by
  have hquote : (Codes.ofChars cs).contains '\''.toNat = false := by
    rw [List.contains_eq_mem, decide_eq_false_iff_not]
    intro hmem
    obtain ⟨c, hc, heq⟩ := List.mem_map.mp hmem
    exact (h c hc).2.2.1 (Char.toNat_inj.mp heq)
  rw [quoteFor, hquote]
  rfl

/-- Plain text is shown as it is between single quotes. -/
theorem quoted_plain {text : String} (h : ∀ c ∈ text.toList, Plain c) :
    quoted text = "'" ++ text ++ "'" := by
  have hshown : (Codes.ofChars text.toList).map (escape isPrintable '\'') =
      text.toList.map Char.toString := by
    rw [Codes.ofChars, List.map_map]
    exact List.map_congr_left fun c hc => escape_plain (h c hc)
  have hjoin : String.join (text.toList.map Char.toString) = text := by
    have hsingle : ∀ c : Char, c.toString.toList = [c] := String.toList_singleton
    rw [← String.toList_inj, String.toList_join, List.flatMap_map]
    simp only [hsingle, List.flatMap_singleton']
  rw [quoted, quotedCodes, quotedWith, Codes.ofString, quoteFor_plain h]
  simp only [hshown, hjoin]
  rfl

end Text

theorem Lexeme.Spelled.plain {l : Lexeme} (h : l.Spelled) : ∀ c ∈ l.chars, Text.Plain c := by
  have hwords : (words.all fun word => word.chars.all fun c => decide (Text.Plain c)) = true := by
    decide +kernel
  have hword : ∀ word ∈ words, ∀ c ∈ word.chars, Text.Plain c := by
    intro word hmem c hc
    exact of_decide_eq_true (List.all_eq_true.mp (List.all_eq_true.mp hwords word hmem) c hc)
  cases l with
  | number digits =>
      intro c hc
      have hdigit := h.2 c hc
      simp only [Text.isDigit, Bool.and_eq_true, decide_eq_true_eq] at hdigit
      have hlow : 0x30 ≤ c.toNat := hdigit.1
      have hhigh : c.toNat ≤ 0x39 := hdigit.2
      refine ⟨by omega, by omega, ?_, ?_⟩
      · rintro rfl
        exact absurd hdigit (by decide)
      · rintro rfl
        exact absurd hdigit (by decide)
  | keyword k => exact hword _ (keyword_mem_words k)
  | operator o => exact hword _ (operator_mem_words o)
  | opening =>
      intro c hc
      obtain rfl := List.mem_singleton.mp hc
      decide
  | closing =>
      intro c hc
      obtain rfl := List.mem_singleton.mp hc
      decide

/-- A message quotes the text of a lexeme. -/
theorem Complaint.describeFound_spelled {found : Option Lexeme} (h : ∀ l ∈ found, l.Spelled) :
    describeFound found = found.elim "end of input" fun l => "'" ++ l.text ++ "'" := by
  cases found with
  | none => rfl
  | some l =>
      refine Text.quoted_plain fun c hc => ?_
      rw [Lexeme.text, String.toList_ofList] at hc
      exact (h l rfl).plain c hc

end DateRules
