import Mathlib.Data.List.Nodup
import DateRules.Token.Lexer

/-!
# Splitting a text that is spelled out

A text that was put together from lexemes and blanks splits into these lexemes
again, as long as no character that follows a lexeme would become part of it.
`Lexeme.JoinedBy` says when that happens: a digit joins a number, and a letter or
an equals sign joins a word if some longer word goes on with it.

`Splits.lexeme` is the step from a text to one with a lexeme before it.
-/

namespace DateRules

open Text

theorem lexemes_cons (token : Token) (tokens : List Token) :
    lexemes (token :: tokens) = token.lexeme :: lexemes tokens := rfl

theorem lexemes_append (first second : List Token) :
    lexemes (first ++ second) = lexemes first ++ lexemes second :=
  List.map_append

namespace Lexeme

/-- The characters with which longer words go on after a lexeme. -/
def extensions (l : Lexeme) : List Char :=
  words.filterMap fun word =>
    if l.chars.isPrefixOf word.chars then (word.chars.drop l.chars.length).head? else none

theorem mem_extensions {l word : Lexeme} {c : Char} {s : List Char} (hword : word ∈ words)
    (h : l.chars ++ c :: s = word.chars) : c ∈ l.extensions := by
  refine List.mem_filterMap.mpr ⟨word, hword, ?_⟩
  have hprefix : l.chars.isPrefixOf word.chars = true :=
    List.isPrefixOf_iff_prefix.mpr ⟨c :: s, h⟩
  rw [if_pos hprefix, ← h, List.drop_left, List.head?_cons]

theorem exists_word_of_mem_extensions {l : Lexeme} {c : Char} (h : c ∈ l.extensions) :
    ∃ word ∈ words, c ∈ word.chars := by
  obtain ⟨word, hword, hhead⟩ := List.mem_filterMap.mp h
  split at hhead
  · exact ⟨word, hword, List.mem_of_mem_drop (List.mem_of_mem_head? hhead)⟩
  · cases hhead

/-- A character that follows a lexeme becomes part of it. -/
def JoinedBy : Lexeme → Char → Prop
  | number _, c => isDigit c
  | opening, _ => False
  | closing, _ => False
  | l, c => c ∈ l.extensions

instance (l : Lexeme) (c : Char) : Decidable (l.JoinedBy c) :=
  match l with
  | number _ => inferInstanceAs (Decidable (isDigit c))
  | keyword k => inferInstanceAs (Decidable (c ∈ (keyword k).extensions))
  | operator o => inferInstanceAs (Decidable (c ∈ (operator o).extensions))
  | opening => inferInstanceAs (Decidable False)
  | closing => inferInstanceAs (Decidable False)

/-- What follows a lexeme does not become part of it. -/
def Apart (l : Lexeme) (rest : List Char) : Prop := ∀ c ∈ rest.head?, ¬ l.JoinedBy c

theorem apart_nil (l : Lexeme) : l.Apart [] := by
  rintro c ⟨⟩

theorem apart_cons {l : Lexeme} {c : Char} (h : ¬ l.JoinedBy c) (rest : List Char) :
    l.Apart (c :: rest) := by
  rintro d ⟨⟩
  exact h

theorem apart_operator {o : Operator} {rest : List Char}
    (h : ∀ c ∈ rest.head?, c ∉ (operator o).extensions) : (operator o).Apart rest :=
  h

/-- The number of a lexeme is written in digits. -/
def Spelled : Lexeme → Prop
  | number digits => digits ≠ [] ∧ ∀ c ∈ digits, isDigit c
  | _ => True

theorem keyword_mem_words (k : Keyword) : keyword k ∈ words :=
  List.mem_append_left _ (List.mem_map_of_mem k.mem_all)

theorem operator_mem_words (o : Operator) : operator o ∈ words :=
  List.mem_append_right _ (List.mem_map_of_mem o.mem_all)

end Lexeme

/-- A character begins neither a parenthesis nor a number, and is no blank. -/
def BeginsWord (c : Char) : Prop :=
  c ≠ '(' ∧ c ≠ ')' ∧ isDigit c = false ∧ isBlank c = false

instance (c : Char) : Decidable (BeginsWord c) :=
  inferInstanceAs (Decidable (_ ∧ _))

theorem beginsWord_of_mem_words {word : Lexeme} (h : word ∈ words) :
    ∃ c cs, word.chars = c :: cs ∧ BeginsWord c := by
  have hall : (words.all fun w => w.chars.head?.any fun c => BeginsWord c) = true := by decide
  obtain ⟨c, hhead, hc⟩ := (Option.any_eq_true _ _).mp (List.all_eq_true.mp hall word h)
  obtain ⟨cs, hcs⟩ := List.head?_eq_some_iff.mp hhead
  exact ⟨c, cs, hcs, of_decide_eq_true hc⟩

theorem eq_of_chars_eq {a b : Lexeme} (ha : a ∈ words) (hb : b ∈ words)
    (h : a.chars = b.chars) : a = b := by
  have hnodup : (words.map Lexeme.chars).Nodup := by decide
  exact List.inj_on_of_nodup_map hnodup ha hb h

section Splitting

variable {rest : List Char}

/-- A word is the longest one if no longer word goes on with what follows. -/
theorem longestWord?_append {word : Lexeme} (hword : word ∈ words)
    (hnext : ∀ c ∈ rest.head?, c ∉ word.extensions) :
    longestWord? (word.chars ++ rest) = some word := by
  cases hfound : longestWord? (word.chars ++ rest) with
  | none => exact absurd (List.prefix_append _ _) (longestWord?_eq_none.mp hfound word hword)
  | some found =>
      obtain ⟨hmem, hbegins, hlongest⟩ := longestWord?_eq_some hfound
      have hlength := hlongest word hword (List.prefix_append _ _)
      obtain ⟨s, hs⟩ := List.prefix_of_prefix_length_le (List.prefix_append _ rest) hbegins hlength
      cases s with
      | nil =>
          rw [List.append_nil] at hs
          rw [eq_of_chars_eq hmem hword hs.symm]
      | cons c s =>
          -- The word that was found is longer, and goes on with the character that follows.
          rw [← hs, List.prefix_append_right_inj] at hbegins
          obtain ⟨tail, rfl⟩ := hbegins
          exact absurd (Lexeme.mem_extensions hmem hs) (hnext c rfl)

theorem Lexeme.first?_append_of_mem_words {word : Lexeme} (hword : word ∈ words)
    (hnext : ∀ c ∈ rest.head?, c ∉ word.extensions) :
    Lexeme.first? (word.chars ++ rest) = some word := by
  obtain ⟨c, cs, hchars, hopening, hclosing, hdigit, -⟩ := beginsWord_of_mem_words hword
  have hlongest := longestWord?_append hword hnext
  rw [hchars, List.cons_append] at hlongest ⊢
  simp only [Lexeme.first?, if_neg hopening, if_neg hclosing, hdigit, Bool.false_eq_true,
    if_false, hlongest]

theorem takeWhile_isDigit_append {digits : List Char} (hdigits : ∀ c ∈ digits, isDigit c)
    (hnext : ∀ c ∈ rest.head?, ¬ isDigit c) :
    (digits ++ rest).takeWhile isDigit = digits := by
  rw [List.takeWhile_append_of_pos hdigits]
  cases rest with
  | nil => simp
  | cons c rest =>
      have hc := hnext c rfl
      rw [List.takeWhile_cons, if_neg hc, List.append_nil]

/-- The lexeme that a text begins with, if what follows it does not join it. -/
theorem Lexeme.first?_append {l : Lexeme} (hspelled : l.Spelled)
    (hnext : l.Apart rest) :
    Lexeme.first? (l.chars ++ rest) = some l := by
  cases l with
  | number digits =>
      obtain ⟨hne, hdigits⟩ := hspelled
      cases digits with
      | nil => exact absurd rfl hne
      | cons d digits =>
          have hd : isDigit d := hdigits d List.mem_cons_self
          have hopening : d ≠ '(' := by
            rintro rfl
            exact absurd hd (by decide)
          have hclosing : d ≠ ')' := by
            rintro rfl
            exact absurd hd (by decide)
          have htail := takeWhile_isDigit_append
            (fun c hc => hdigits c (List.mem_cons_of_mem _ hc)) hnext
          simp only [chars, List.cons_append, first?, if_neg hopening, if_neg hclosing, if_pos hd,
            htail]
  | keyword k => exact first?_append_of_mem_words (keyword_mem_words k) hnext
  | operator o => exact first?_append_of_mem_words (operator_mem_words o) hnext
  | opening => rfl
  | closing => rfl

theorem Lexeme.Spelled.head {l : Lexeme} (h : l.Spelled) :
    ∃ c cs, l.chars = c :: cs ∧ isBlank c = false := by
  have hwords : ∀ {word : Lexeme}, word ∈ words →
      ∃ c cs, word.chars = c :: cs ∧ isBlank c = false := by
    intro word hword
    obtain ⟨c, cs, hchars, -, -, -, hblank⟩ := beginsWord_of_mem_words hword
    exact ⟨c, cs, hchars, hblank⟩
  cases l with
  | number digits =>
      obtain ⟨hne, hdigits⟩ := h
      obtain ⟨c, cs, rfl⟩ := List.exists_cons_of_ne_nil hne
      exact ⟨c, cs, rfl, isBlank_ne_isDigit (hdigits c List.mem_cons_self)⟩
  | keyword k => exact hwords (Lexeme.keyword_mem_words k)
  | operator o => exact hwords (Lexeme.operator_mem_words o)
  | opening => exact ⟨'(', [], rfl, by decide⟩
  | closing => exact ⟨')', [], rfl, by decide⟩

theorem Lexeme.spelled_of_mem_words {word : Lexeme} (h : word ∈ words) : word.Spelled := by
  rcases List.mem_append.mp h with hmem | hmem
  · obtain ⟨k, -, rfl⟩ := List.mem_map.mp hmem
    trivial
  · obtain ⟨o, -, rfl⟩ := List.mem_map.mp hmem
    trivial

theorem Lexeme.spelled_of_first? {cs : List Char} {l : Lexeme}
    (h : Lexeme.first? cs = some l) : l.Spelled := by
  cases cs with
  | nil => cases h
  | cons c cs =>
      simp only [first?] at h
      split at h
      · cases h
        trivial
      · split at h
        · cases h
          trivial
        · split at h
          · next hdigit =>
              cases h
              refine ⟨List.cons_ne_nil _ _, ?_⟩
              intro d hd
              rcases List.mem_cons.mp hd with rfl | hd
              · exact hdigit
              · exact List.all_eq_true.mp List.all_takeWhile d hd
          · exact spelled_of_mem_words (longestWord?_eq_some h).1

/-- A text splits into the given lexemes, at whatever position it begins. -/
def Splits (cs : List Char) (w : List Lexeme) : Prop :=
  ∀ position, ∃ t, tokenizeFrom position cs = .ok t ∧ lexemes t.tokens = w

theorem splits_nil : Splits [] [] := by
  intro position
  refine ⟨⟨[], position⟩, ?_, rfl⟩
  unfold tokenizeFrom
  rfl

theorem tokenizeFrom_blank {c : Char} {position : Nat} (hc : isBlank c) (rest : List Char) :
    tokenizeFrom position (c :: rest) = tokenizeFrom (position + 1) rest := by
  conv => lhs; unfold tokenizeFrom
  rw [if_pos hc]

theorem Splits.blank {c : Char} {w : List Lexeme} (hc : isBlank c) (h : Splits rest w) :
    Splits (c :: rest) w := by
  intro position
  obtain ⟨t, ht, hw⟩ := h (position + 1)
  exact ⟨t, (tokenizeFrom_blank hc rest).trans ht, hw⟩

/-- The lexeme that a text begins with comes before what the rest of the text gives. -/
theorem tokenizeFrom_cons {c : Char} {l : Lexeme} (hblank : isBlank c = false)
    (hfirst : Lexeme.first? (c :: rest) = some l) (position : Nat) :
    tokenizeFrom position (c :: rest) =
      (tokenizeFrom (position + l.chars.length) ((c :: rest).drop l.chars.length)).map
        (·.cons ⟨l, position⟩) := by
  conv => lhs; unfold tokenizeFrom
  rw [if_neg (by simp [hblank])]
  split
  · next hnone =>
      rw [hfirst] at hnone
      cases hnone
  · next found hfound =>
      obtain rfl : l = found := Option.some.inj (hfirst.symm.trans hfound)
      cases tokenizeFrom (position + l.chars.length) ((c :: rest).drop l.chars.length) <;> rfl

/-- The lexeme that a text begins with is its first token. -/
theorem tokenizeFrom_append {l : Lexeme} {position : Nat} {t : Tokenized}
    (hfirst : Lexeme.first? (l.chars ++ rest) = some l)
    (h : tokenizeFrom (position + l.chars.length) rest = .ok t) :
    tokenizeFrom position (l.chars ++ rest) = .ok (t.cons ⟨l, position⟩) := by
  have hdrop : (l.chars ++ rest).drop l.chars.length = rest := List.drop_left
  rw [← hdrop] at h
  obtain ⟨c, cs, hchars, hblank⟩ := (Lexeme.spelled_of_first? hfirst).head
  rw [hchars, List.cons_append] at hfirst h ⊢
  rw [← hchars] at h
  rw [tokenizeFrom_cons hblank hfirst, h]
  rfl

/-- The lexeme that a text begins with comes before what its rest splits into. -/
theorem Splits.of_first? {l : Lexeme} {w : List Lexeme}
    (hfirst : Lexeme.first? (l.chars ++ rest) = some l) (h : Splits rest w) :
    Splits (l.chars ++ rest) (l :: w) := by
  intro position
  obtain ⟨t, ht, hw⟩ := h (position + l.chars.length)
  exact ⟨t.cons ⟨l, position⟩, tokenizeFrom_append hfirst ht, congrArg (l :: ·) hw⟩

/-- A lexeme before a text is split off, if the text does not join it. -/
theorem Splits.lexeme {l : Lexeme} {w : List Lexeme} (hspelled : l.Spelled)
    (hnext : l.Apart rest) (h : Splits rest w) :
    Splits (l.chars ++ rest) (l :: w) :=
  .of_first? (Lexeme.first?_append hspelled hnext) h

theorem Splits.tokenize {text : String} {w : List Lexeme} (h : Splits text.toList w) :
    ∃ t, tokenize text = .ok t ∧ lexemes t.tokens = w :=
  h 0

end Splitting

/-- The numbers among the tokens of a text are written in digits. -/
theorem spelled_of_tokenizeFrom {position : Nat} {cs : List Char} {t : Tokenized}
    (h : tokenizeFrom position cs = .ok t) : ∀ l ∈ lexemes t.tokens, l.Spelled := by
  fun_induction tokenizeFrom position cs generalizing t with
  | case1 position =>
      cases h
      exact fun _ hl => absurd hl List.not_mem_nil
  | case2 position c rest hblank ih => exact ih h
  | case3 => cases h
  | case4 position c rest hblank l hfirst _ after hafter ih =>
      cases h
      intro l' hl'
      rcases List.mem_cons.mp hl' with rfl | hl'
      · exact Lexeme.spelled_of_first? hfirst
      · exact ih hafter l' hl'
  | case5 => cases h

/-- A run of digits writes a number that needs no more of them. -/
theorem ofDigitChars_lt {digits : List Char} (h : ∀ c ∈ digits, isDigit c) (n : Nat) :
    Nat.ofDigitChars 10 digits n < (n + 1) * Nat.pow 10 digits.length := by
  induction digits generalizing n with
  | nil => simp
  | cons c cs ih =>
      have hc := h c List.mem_cons_self
      simp only [isDigit, Bool.and_eq_true, decide_eq_true_eq, Char.le_def,
        UInt32.le_iff_toNat_le] at hc
      have hcode : c.toNat - '0'.toNat ≤ 9 := by
        have hle : c.toNat ≤ 57 := hc.2
        have hzero : '0'.toNat = 48 := rfl
        omega
      have hcs := ih (fun d hd => h d (List.mem_cons_of_mem _ hd))
        (10 * n + (c.toNat - '0'.toNat))
      rw [Nat.ofDigitChars_cons, List.length_cons]
      calc Nat.ofDigitChars 10 cs (10 * n + (c.toNat - '0'.toNat))
          < (10 * n + (c.toNat - '0'.toNat) + 1) * Nat.pow 10 cs.length := hcs
        _ ≤ ((n + 1) * 10) * Nat.pow 10 cs.length := Nat.mul_le_mul_right _ (by omega)
        _ = (n + 1) * Nat.pow 10 (cs.length + 1) := by
            rw [Nat.mul_assoc, Nat.mul_comm 10]
            rfl

end DateRules
