import DateRules.Proofs.Token.Munch

/-!
# Places in a text

Tokens have positions, and `Located` says how the tokens of a text lie in it: one after the
other, with nothing but blanks between them, each as long as it can be. `StrayCharacter.At`
says where a text fails instead.

What `Lexeme.first?` finds in the rest of a text from some position on is here told by the
characters at the positions of the text itself: where it finds a number no digit follows
(`isDigit_after_number`), and where it finds a word all others are shorter
(`longestWord_of_first?`).
-/

namespace DateRules

open Text

/-- The position after the last character of a token. -/
def Token.finish (token : Token) : Nat := token.position + token.lexeme.chars.length

/-- One of the characters of a token stands at a position. -/
def Token.Covers (token : Token) (i : Nat) : Prop := token.position ≤ i ∧ i < token.finish

/-- A run of digits in a text that goes on neither before nor after. -/
structure DigitRun (cs : List Char) (position : Nat) (digits : List Char) : Prop where
  ne_nil : digits ≠ []
  isDigit : ∀ c ∈ digits, isDigit c
  begins : digits <+: cs.drop position
  before : ∀ i c, i + 1 = position → cs[i]? = some c → Text.isDigit c = false
  after : ∀ c, cs[position + digits.length]? = some c → Text.isDigit c = false

/-- A word begins at a position of a text, and all other words that do are shorter. -/
structure LongestWord (cs : List Char) (position : Nat) (word : Lexeme) : Prop where
  mem : word ∈ words
  begins : word.chars <+: cs.drop position
  longest : ∀ other ∈ words, other.chars <+: cs.drop position →
    other = word ∨ other.chars.length < word.chars.length

/-- Where the tokens of a text stand. -/
structure Located (cs : List Char) (t : Tokenized) : Prop where
  increasing : t.tokens.Pairwise fun a b => a.position < b.position
  disjoint : t.tokens.Pairwise fun a b => a.finish ≤ b.position
  slice : ∀ token ∈ t.tokens,
    (cs.drop token.position).take token.lexeme.chars.length = token.lexeme.chars
  outside : ∀ i c, cs[i]? = some c → (∀ token ∈ t.tokens, ¬ token.Covers i) → isBlank c
  textEnd_eq : t.textEnd = cs.length
  number : ∀ token ∈ t.tokens, ∀ digits, token.lexeme = .number digits →
    DigitRun cs token.position digits
  keyword : ∀ token ∈ t.tokens, ∀ k, token.lexeme = .keyword k →
    LongestWord cs token.position token.lexeme
  operator : ∀ token ∈ t.tokens, ∀ o, token.lexeme = .operator o →
    LongestWord cs token.position token.lexeme

/-- Why a text does not split into tokens: the text before the character does, and the
character begins no token. -/
structure StrayCharacter.At (cs : List Char) (stray : StrayCharacter) : Prop where
  before : ∃ t, tokenize (String.ofList (cs.take stray.position)) = .ok t
  char_eq : cs[stray.position]? = some stray.char
  isBlank_eq : isBlank stray.char = false
  isDigit_eq : isDigit stray.char = false
  ne_opening : stray.char ≠ '('
  ne_closing : stray.char ≠ ')'
  no_word : ∀ word ∈ words, ¬ word.chars <+: cs.drop stray.position

section Text

variable {cs rest : List Char} {c : Char} {p : Nat}

theorem getElem?_of_drop_eq_cons (h : cs.drop p = c :: rest) : cs[p]? = some c := by
  rw [← List.head?_drop, h]
  rfl

theorem drop_eq_cons_of_getElem? (h : cs[p]? = some c) : cs.drop p = c :: cs.drop (p + 1) := by
  obtain ⟨hlt, rfl⟩ := List.getElem?_eq_some_iff.mp h
  exact List.drop_eq_getElem_cons hlt

theorem Lexeme.length_pos {l : Lexeme} (h : Lexeme.first? cs = some l) : 0 < l.chars.length :=
  List.length_pos_iff.mpr (first?_eq_some h).1

/-- The longest lexeme is also the longest in a part of the text that holds it. -/
theorem Lexeme.first?_of_prefix {ds : List Char} {l : Lexeme} (h : Lexeme.first? cs = some l)
    (hbegins : l.chars <+: ds) (hpart : ds <+: cs) : Lexeme.first? ds = some l := by
  obtain ⟨hspelled, -, hlongest⟩ := Lexeme.first?_eq_some_iff.mp h
  exact Lexeme.first?_eq_some_iff.mpr
    ⟨hspelled, hbegins, fun m hm hstarts => hlongest m hm (hstarts.trans hpart)⟩

theorem longestWord_of_first? {l : Lexeme} (hword : l ∈ words)
    (h : Lexeme.first? (cs.drop p) = some l) : LongestWord cs p l := by
  obtain ⟨hspelled, hbegins, hlongest⟩ := Lexeme.first?_eq_some_iff.mp h
  refine ⟨hword, hbegins, ?_⟩
  intro other hother hstarts
  have hspelled' := Lexeme.spelled_of_mem_words hother
  rcases Nat.lt_or_eq_of_le (hlongest other hspelled' hstarts) with hlt | heq
  · exact .inr hlt
  · have hchars : other.chars = l.chars :=
      (List.prefix_of_prefix_length_le hstarts hbegins (Nat.le_of_eq heq)).eq_of_length heq
    exact .inl (hspelled'.eq_of_chars hspelled hchars)

/-- What stands where a lexeme was read is one of its characters. -/
theorem Lexeme.mem_chars_of_getElem? {l : Lexeme} {i : Nat} (h : l.chars <+: cs.drop p)
    (hle : p ≤ i) (hlt : i < p + l.chars.length) (hc : cs[i]? = some c) : c ∈ l.chars := by
  obtain ⟨tail, htail⟩ := h
  obtain ⟨k, rfl⟩ := Nat.exists_eq_add_of_le hle
  rw [← List.getElem?_drop, ← htail, List.getElem?_append_left (by omega)] at hc
  exact List.mem_of_getElem? hc

/-- Of the lexemes only numbers have digits in them. -/
theorem Lexeme.exists_eq_number {l : Lexeme} (hc : c ∈ l.chars) (hdigit : isDigit c) :
    ∃ digits, l = .number digits := by
  have hwords : ∀ word ∈ words, ¬ c ∈ word.chars := by
    intro word hword hmem
    have hall : ∀ word ∈ words, word.chars.all (!isDigit ·) := by decide
    have hclean := List.all_eq_true.mp (hall word hword) c hmem
    simp [hdigit] at hclean
  cases l with
  | number digits => exact ⟨digits, rfl⟩
  | keyword k => exact absurd hc (hwords _ (keyword_mem_words k))
  | operator o => exact absurd hc (hwords _ (operator_mem_words o))
  | opening =>
      obtain rfl := List.mem_singleton.mp hc
      exact absurd hdigit (by decide)
  | closing =>
      obtain rfl := List.mem_singleton.mp hc
      exact absurd hdigit (by decide)

/-- A number that was read stops only where the digits do. -/
theorem isDigit_after_number {digits : List Char}
    (h : Lexeme.first? (cs.drop p) = some (.number digits))
    (hc : cs[p + digits.length]? = some c) : isDigit c = false := by
  obtain ⟨⟨-, hdigits⟩, ⟨tail, htail⟩, hlongest⟩ := Lexeme.first?_eq_some_iff.mp h
  change digits ++ tail = _ at htail
  refine Bool.eq_false_iff.mpr fun hdigit => ?_
  have hnext : cs.drop (p + digits.length) = tail := by
    rw [← List.drop_drop, ← htail, List.drop_left]
  rw [drop_eq_cons_of_getElem? hc] at hnext
  subst hnext
  -- With the digit that follows the number would be longer.
  have hle := hlongest (.number (digits ++ [c]))
    ⟨by simp, by simpa [or_imp, forall_and] using ⟨hdigits, hdigit⟩⟩
    ⟨cs.drop (p + digits.length + 1), by simpa [Lexeme.chars] using htail⟩
  simp only [Lexeme.chars, List.length_append, List.length_singleton] at hle
  omega

end Text

end DateRules
