import DateRules.Text.Blank
import DateRules.Token.Basic

/-!
# Splitting text into tokens

`Lexeme.first?` finds the longest lexeme that a text begins with, and
`tokenize` splits a whole text into such lexemes. Blanks between tokens are
optional and dropped; a character that begins no lexeme is an error.

`Lexeme.first?_eq_some` says that a lexeme found is not empty and is a part of
the text, which is why the split ends.
-/

namespace DateRules

open Text

/-- The lexeme that a text begins with, if it begins with any: a parenthesis, a
maximal run of digits or the longest word. -/
def Lexeme.first? : List Char → Option Lexeme
  | [] => none
  | c :: cs =>
      if c = '(' then some .opening
      else if c = ')' then some .closing
      else if isDigit c then some (.number (c :: cs.takeWhile isDigit))
      else longestWord? (c :: cs)

theorem chars_ne_nil_of_mem_words {word : Lexeme} (h : word ∈ words) : word.chars ≠ [] := by
  have hall : ∀ w ∈ words, w.chars ≠ [] := by decide
  exact hall word h

/-- A lexeme found at the start of a text has characters, and they begin the
text. -/
theorem Lexeme.first?_eq_some {cs : List Char} {l : Lexeme} (h : Lexeme.first? cs = some l) :
    l.chars ≠ [] ∧ l.chars <+: cs := by
  cases cs with
  | nil => simp [first?] at h
  | cons c cs =>
      simp only [first?] at h
      split at h
      · cases h
        simp_all [chars]
      · split at h
        · cases h
          simp_all [chars]
        · split at h
          · cases h
            exact ⟨List.cons_ne_nil _ _,
              (List.prefix_cons_inj c).mpr (List.takeWhile_prefix _)⟩
          · have hword := longestWord?_eq_some h
            exact ⟨chars_ne_nil_of_mem_words hword.1, hword.2.1⟩

theorem Lexeme.length_drop_first? {cs : List Char} {l : Lexeme}
    (h : Lexeme.first? cs = some l) : (cs.drop l.chars.length).length < cs.length := by
  obtain ⟨hne, hbegins⟩ := first?_eq_some h
  have hpos := List.length_pos_iff.mpr hne
  have hle := hbegins.length_le
  rw [List.length_drop]
  omega

/-- A character that begins no token, and its position. -/
structure StrayCharacter where
  char : Char
  position : Nat
deriving DecidableEq, Repr

/-- The tokens of a text, and the position of its end. -/
structure Tokenized where
  tokens : List Token
  textEnd : Nat
deriving DecidableEq, Repr

/-- The same text with a token before it. -/
def Tokenized.cons (token : Token) (t : Tokenized) : Tokenized := ⟨token :: t.tokens, t.textEnd⟩

/-- The tokens of a text whose first character has the given position. -/
def tokenizeFrom (position : Nat) (cs : List Char) : Except StrayCharacter Tokenized :=
  match cs with
  | [] => .ok ⟨[], position⟩
  | c :: rest =>
      if isBlank c then
        tokenizeFrom (position + 1) rest
      else
        match h : Lexeme.first? (c :: rest) with
        | none => .error ⟨c, position⟩
        | some l =>
            have := Lexeme.length_drop_first? h
            match tokenizeFrom (position + l.chars.length) ((c :: rest).drop l.chars.length) with
            | .ok t => .ok (t.cons ⟨l, position⟩)
            | .error e => .error e
termination_by cs.length
decreasing_by
  · exact Nat.lt_succ_self _
  · assumption

/-- The tokens of a text, or the first character that begins none. -/
def tokenize (text : String) : Except StrayCharacter Tokenized :=
  tokenizeFrom 0 text.toList

end DateRules
