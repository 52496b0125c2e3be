import DateRules.Proofs.Token.Spelling

/-!
# The longest lexeme

A text can begin with several lexemes: a run of digits with each of its beginnings, and a
word with the words that it goes on from. `Lexeme.first?` takes the longest of them,
whatever kind it has (`Lexeme.first?_eq_some_iff`), and finds none only where there is
none (`Lexeme.first?_eq_none_iff`).

The kind is told by the first character, as `Lexeme.Spelled.begins` says.
-/

namespace DateRules

open Text

namespace Lexeme

/-- What the first character of a text says about a lexeme that begins the text. -/
inductive Begins (c : Char) (cs : List Char) : Lexeme → Prop
  | opening (h : c = '(') : Begins c cs opening
  | closing (h : c = ')') : Begins c cs closing
  | number {digits : List Char} (h : isDigit c) (hdigits : ∀ d ∈ digits, isDigit d)
      (hbegins : digits <+: cs) : Begins c cs (number (c :: digits))
  | word {l : Lexeme} (hword : l ∈ words) (h : BeginsWord c) (hbegins : l.chars <+: c :: cs) :
      Begins c cs l

theorem beginsWord_of_prefix {l : Lexeme} {c : Char} {cs : List Char} (hword : l ∈ words)
    (h : l.chars <+: c :: cs) : Begins c cs l := by
  obtain ⟨d, ds, hchars, hd⟩ := beginsWord_of_mem_words hword
  have hbegins := h
  rw [hchars] at hbegins
  obtain ⟨rfl, -⟩ := List.cons_prefix_cons.mp hbegins
  exact .word hword hd h

theorem Spelled.begins {l : Lexeme} {c : Char} {cs : List Char} (hspelled : l.Spelled)
    (h : l.chars <+: c :: cs) : Begins c cs l := by
  cases l with
  | number digits =>
      obtain ⟨hne, hdigits⟩ := hspelled
      obtain ⟨d, ds, rfl⟩ := List.exists_cons_of_ne_nil hne
      obtain ⟨rfl, hbegins⟩ := List.cons_prefix_cons.mp h
      exact .number (hdigits d List.mem_cons_self)
        (fun x hx => hdigits x (List.mem_cons_of_mem _ hx)) hbegins
  | keyword k => exact beginsWord_of_prefix (keyword_mem_words k) h
  | operator o => exact beginsWord_of_prefix (operator_mem_words o) h
  | opening => exact .opening (List.cons_prefix_cons.mp h).1.symm
  | closing => exact .closing (List.cons_prefix_cons.mp h).1.symm

theorem Spelled.not_prefix_nil {l : Lexeme} (h : l.Spelled) : ¬ l.chars <+: [] := by
  obtain ⟨c, cs, hchars, -⟩ := h.head
  rw [hchars, List.prefix_nil]
  exact List.cons_ne_nil c cs

/-- The characters of a lexeme tell which one it is. -/
theorem Spelled.eq_of_chars {l m : Lexeme} (hl : l.Spelled) (hm : m.Spelled)
    (h : l.chars = m.chars) : l = m := by
  have hfirst := first?_append hl (apart_nil l)
  rw [h, first?_append hm (apart_nil m)] at hfirst
  exact (Option.some.inj hfirst).symm

section First

variable {c : Char} {cs : List Char} {l m : Lexeme}

theorem first?_of_isDigit (h : isDigit c) (cs : List Char) :
    first? (c :: cs) = some (number (c :: cs.takeWhile isDigit)) := by
  have hopening : c ≠ '(' := by
    rintro rfl
    exact absurd h (by decide)
  have hclosing : c ≠ ')' := by
    rintro rfl
    exact absurd h (by decide)
  rw [first?, if_neg hopening, if_neg hclosing, if_pos h]

theorem first?_of_beginsWord (h : BeginsWord c) (cs : List Char) :
    first? (c :: cs) = longestWord? (c :: cs) := by
  obtain ⟨hopening, hclosing, hdigit, -⟩ := h
  rw [first?, if_neg hopening, if_neg hclosing, if_neg (by simp [hdigit])]

/-- No lexeme that begins a text is longer than the one that is found. -/
theorem Begins.length_le (h : Begins c cs m) (hfirst : first? (c :: cs) = some l) :
    m.chars.length ≤ l.chars.length := by
  cases h with
  | opening h =>
      subst h
      cases hfirst
      exact Nat.le_refl _
  | closing h =>
      subst h
      cases hfirst
      exact Nat.le_refl _
  | @number digits hc hdigits hbegins =>
      rw [first?_of_isDigit hc] at hfirst
      cases hfirst
      obtain ⟨rest, rfl⟩ := hbegins
      rw [List.takeWhile_append_of_pos hdigits]
      simp [chars]
  | word hword hc hbegins =>
      rw [first?_of_beginsWord hc] at hfirst
      exact (longestWord?_eq_some hfirst).2.2 m hword hbegins

theorem Begins.first?_ne_none (h : Begins c cs m) : first? (c :: cs) ≠ none := by
  intro hfirst
  cases h with
  | opening h =>
      subst h
      cases hfirst
  | closing h =>
      subst h
      cases hfirst
  | number hc _ _ =>
      rw [first?_of_isDigit hc] at hfirst
      cases hfirst
  | word hword hc hbegins =>
      rw [first?_of_beginsWord hc] at hfirst
      exact longestWord?_eq_none.mp hfirst m hword hbegins

end First

theorem first?_eq_none_iff {cs : List Char} :
    first? cs = none ↔ ∀ l : Lexeme, l.Spelled → ¬ l.chars <+: cs := by
  constructor
  · intro hfirst l hspelled hbegins
    cases cs with
    | nil => exact hspelled.not_prefix_nil hbegins
    | cons c cs => exact (hspelled.begins hbegins).first?_ne_none hfirst
  · intro h
    cases hfirst : first? cs with
    | none => rfl
    | some l => exact absurd (first?_eq_some hfirst).2 (h l (spelled_of_first? hfirst))

/-- The lexeme found at the start of a text is the longest one that begins it. -/
theorem first?_eq_some_iff {cs : List Char} {l : Lexeme} :
    first? cs = some l ↔ l.Spelled ∧ l.chars <+: cs ∧
      ∀ m : Lexeme, m.Spelled → m.chars <+: cs → m.chars.length ≤ l.chars.length := by
  constructor
  · intro hfirst
    refine ⟨spelled_of_first? hfirst, (first?_eq_some hfirst).2, ?_⟩
    intro m hspelled hbegins
    cases cs with
    | nil => exact absurd hbegins hspelled.not_prefix_nil
    | cons c cs => exact (hspelled.begins hbegins).length_le hfirst
  · rintro ⟨hspelled, hbegins, hlongest⟩
    cases hfirst : first? cs with
    | none => exact absurd hbegins (first?_eq_none_iff.mp hfirst l hspelled)
    | some m =>
        have hm := (first?_eq_some hfirst).2
        have hle := hlongest m (spelled_of_first? hfirst) hm
        have hchars : m.chars = l.chars := by
          refine (List.prefix_of_prefix_length_le hm hbegins hle).eq_of_length_le ?_
          cases cs with
          | nil => exact absurd hbegins hspelled.not_prefix_nil
          | cons c cs => exact (hspelled.begins hbegins).length_le hfirst
        rw [(spelled_of_first? hfirst).eq_of_chars hspelled hchars]

end Lexeme

end DateRules
