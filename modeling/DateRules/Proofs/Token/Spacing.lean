import DateRules.Proofs.Token.Munch

/-!
# Blanks between tokens

`spaced runs position cs` is the text `cs`, whose first character has the given position,
with a run of characters before each of its characters and one at its end: `runs n` is
put in at position `n`. Runs that fit between the tokens of a text are made of blanks and
are empty inside tokens. They leave the lexemes of the text as they are and move each
token by the number of characters put in before it (`tokenizeFrom_spaced`).

No lexeme has a blank in it. So a lexeme that begins a spaced text begins the text itself
(`prefix_of_prefix_spaced`), and the longest one there is the longest one here.
-/

namespace DateRules

open Text

theorem Lexeme.Spelled.isBlank_eq_false {l : Lexeme} (h : l.Spelled) :
    ∀ c ∈ l.chars, isBlank c = false := by
  have hwords : ∀ word ∈ words, ∀ c ∈ word.chars, isBlank c = false := by
    intro word hword c hc
    have hall : ∀ word ∈ words, word.chars.all (!isBlank ·) := by decide
    have hclean := List.all_eq_true.mp (hall word hword) c hc
    rwa [Bool.not_eq_true'] at hclean
  cases l with
  | number digits => exact fun c hc => isBlank_ne_isDigit (h.2 c hc)
  | keyword k => exact hwords _ (keyword_mem_words k)
  | operator o => exact hwords _ (operator_mem_words o)
  | opening => exact List.forall_mem_singleton.mpr (by decide)
  | closing => exact List.forall_mem_singleton.mpr (by decide)

/-- A text with runs of characters put into it. -/
def spaced (runs : Nat → List Char) (position : Nat) : List Char → List Char
  | [] => runs position
  | c :: cs => runs position ++ c :: spaced runs (position + 1) cs

/-- The number of characters that are put in before the run at a position. -/
def insertedBefore (runs : Nat → List Char) : Nat → Nat
  | 0 => 0
  | n + 1 => insertedBefore runs n + (runs n).length

/-- The position to which a character moves. -/
def movedTo (runs : Nat → List Char) (n : Nat) : Nat := n + insertedBefore runs (n + 1)

/-- The tokens of a text at the positions to which they move. -/
def Tokenized.moved (runs : Nat → List Char) (t : Tokenized) : Tokenized :=
  ⟨t.tokens.map fun token => ⟨token.lexeme, movedTo runs token.position⟩,
    movedTo runs t.textEnd⟩

theorem Tokenized.lexemes_moved (runs : Nat → List Char) (t : Tokenized) :
    lexemes (t.moved runs).tokens = lexemes t.tokens :=
  List.map_map

/-- Runs of blanks that are put in at the ends of a text and between its tokens. -/
structure FitsBetween (runs : Nat → List Char) (tokens : List Token) : Prop where
  blank : ∀ n, ∀ c ∈ runs n, isBlank c
  outside : ∀ token ∈ tokens, ∀ n, token.position < n →
    n < token.position + token.lexeme.chars.length → runs n = []

/-- One run that is put in at a position. -/
def runAt (position : Nat) (blanks : List Char) (n : Nat) : List Char :=
  if n = position then blanks else []

theorem fitsBetween_runAt {position : Nat} {blanks : List Char} {tokens : List Token}
    (hblank : ∀ c ∈ blanks, isBlank c)
    (houtside : ∀ token ∈ tokens, position ≤ token.position ∨
      token.position + token.lexeme.chars.length ≤ position) :
    FitsBetween (runAt position blanks) tokens := by
  refine ⟨?_, ?_⟩
  · intro n c hc
    rw [runAt] at hc
    split at hc
    · exact hblank c hc
    · cases hc
  · intro token htoken n hlt hle
    have hne : n ≠ position := by
      rcases houtside token htoken with h | h <;> omega
    rw [runAt, if_neg hne]

section Spacing

variable {runs : Nat → List Char} {p : Nat} {cs : List Char}

/-- A text without blanks that begins a spaced text begins the text itself. -/
theorem prefix_of_prefix_spaced (hblank : ∀ n, ∀ c ∈ runs n, isBlank c) {r : List Char}
    (hr : ∀ c ∈ r, isBlank c = false) (h : r <+: spaced runs p cs) : r <+: cs := by
  induction r generalizing p cs with
  | nil => exact List.nil_prefix
  | cons d r ih =>
      cases hrun : runs p with
      | cons b run =>
          -- The text would begin with the blank that was put in.
          have hb : isBlank b := hblank p b (hrun ▸ List.mem_cons_self)
          have hd := hr d List.mem_cons_self
          cases cs <;> simp only [spaced, hrun, List.cons_append] at h <;>
            obtain ⟨rfl, -⟩ := List.cons_prefix_cons.mp h <;>
            exact absurd hb (by simp [hd])
      | nil =>
          cases cs with
          | nil =>
              rw [spaced, hrun] at h
              exact h
          | cons c cs =>
              rw [spaced, hrun] at h
              obtain ⟨rfl, hrest⟩ := List.cons_prefix_cons.mp h
              exact (List.prefix_cons_inj d).mpr
                (ih (fun c hc => hr c (List.mem_cons_of_mem _ hc)) hrest)

/-- A part of a text into which nothing is put stays together. -/
theorem spaced_append {u : List Char} (hne : u ≠ [])
    (h : ∀ n, p < n → n < p + u.length → runs n = []) (v : List Char) :
    spaced runs p (u ++ v) =
      runs p ++ (u ++ spaced runs (p + u.length) v) := by
  induction u generalizing p with
  | nil => exact absurd rfl hne
  | cons c u ih =>
      rw [List.cons_append, spaced, List.cons_append]
      congr 2
      cases u with
      | nil => rfl
      | cons d u =>
          have hnext : runs (p + 1) = [] := h _ (by omega) (by simp)
          have htail := ih (List.cons_ne_nil d u) (p := p + 1) (by
            intro n hlt hle
            exact h n (by omega) (by simp at hle ⊢; omega))
          have hend : p + 1 + (d :: u).length = p + (c :: d :: u).length := by
            simp only [List.length_cons]
            omega
          rw [htail, hnext, List.nil_append, hend]

theorem insertedBefore_add {k : Nat} (hk : 1 ≤ k)
    (h : ∀ n, p < n → n < p + k → runs n = []) :
    insertedBefore runs (p + k) = insertedBefore runs (p + 1) := by
  induction k with
  | zero => omega
  | succ k ih =>
      rcases Nat.eq_zero_or_pos k with rfl | hpos
      · rfl
      · have hrun : runs (p + k) = [] := h _ (by omega) (by omega)
        rw [← Nat.add_assoc, insertedBefore, hrun, List.length_nil, Nat.add_zero]
        exact ih hpos fun n hlt hle => h n hlt (by omega)

theorem tokenizeFrom_blanks {blanks : List Char} (h : ∀ c ∈ blanks, isBlank c)
    (rest : List Char) :
    tokenizeFrom p (blanks ++ rest) = tokenizeFrom (p + blanks.length) rest := by
  induction blanks generalizing p with
  | nil => rfl
  | cons c blanks ih =>
      rw [List.cons_append, tokenizeFrom_blank (h c List.mem_cons_self),
        ih fun d hd => h d (List.mem_cons_of_mem _ hd), List.length_cons]
      congr 1
      omega

/-- The longest lexeme that begins a text is the longest one also if runs are put in after
it. -/
theorem first?_append_spaced (hblank : ∀ n, ∀ c ∈ runs n, isBlank c) {l : Lexeme}
    {tail : List Char} (h : Lexeme.first? (l.chars ++ tail) = some l) :
    Lexeme.first? (l.chars ++ spaced runs p tail) = some l := by
  obtain ⟨hspelled, -, hlongest⟩ := Lexeme.first?_eq_some_iff.mp h
  refine Lexeme.first?_eq_some_iff.mpr ⟨hspelled, List.prefix_append _ _, ?_⟩
  intro m hm hbegins
  rcases Nat.le_total m.chars.length l.chars.length with hle | hge
  · exact hle
  · obtain ⟨r, hr⟩ := List.prefix_of_prefix_length_le (List.prefix_append _ _) hbegins hge
    have hclean : ∀ c ∈ r, isBlank c = false := by
      intro c hc
      exact hm.isBlank_eq_false c (hr ▸ List.mem_append_right _ hc)
    rw [← hr, List.prefix_append_right_inj] at hbegins
    refine hlongest m hm ?_
    rw [← hr, List.prefix_append_right_inj]
    exact prefix_of_prefix_spaced hblank hclean hbegins

/-- Blanks that are put in between the tokens of a text move the tokens and change
nothing else. -/
theorem tokenizeFrom_spaced {t : Tokenized} (h : tokenizeFrom p cs = .ok t)
    (hfits : FitsBetween runs t.tokens) :
    tokenizeFrom (p + insertedBefore runs p) (spaced runs p cs) = .ok (t.moved runs) := by
  obtain ⟨hblank, houtside⟩ := hfits
  fun_induction tokenizeFrom p cs generalizing t with
  | case1 p =>
      cases h
      have hend := tokenizeFrom_blanks (p := p + insertedBefore runs p) (hblank p) []
      rw [List.append_nil] at hend
      rw [spaced, hend]
      unfold tokenizeFrom
      simp only [Tokenized.moved, movedTo, insertedBefore, Nat.add_assoc]
      rfl
  | case2 p c rest hc ih =>
      have hrest := ih h houtside
      rw [spaced, tokenizeFrom_blanks (hblank p)]
      unfold tokenizeFrom
      rw [if_pos hc, ← hrest, insertedBefore]
      congr 1
      omega
  | case3 => cases h
  | case4 p c rest hc l hfirst _ after hafter ih =>
      cases h
      obtain ⟨hne, tail, htail⟩ := Lexeme.first?_eq_some hfirst
      rw [← htail] at hfirst hafter ih ⊢
      rw [List.drop_left] at hafter ih
      have hinside : ∀ n, p < n → n < p + l.chars.length → runs n = [] :=
        houtside ⟨l, p⟩ List.mem_cons_self
      have hrest := ih hafter fun token htoken =>
        houtside token (List.mem_cons_of_mem _ htoken)
      have hmoved : tokenizeFrom (movedTo runs p + l.chars.length)
          (spaced runs (p + l.chars.length) tail) = .ok (after.moved runs) := by
        rw [← hrest, insertedBefore_add (List.length_pos_iff.mpr hne) hinside, movedTo]
        congr 1
        omega
      rw [spaced_append hne hinside, tokenizeFrom_blanks (hblank p), Nat.add_assoc]
      exact tokenizeFrom_append (first?_append_spaced hblank hfirst) hmoved
  | case5 => cases h

end Spacing

/-- The characters of a text that are no blanks. -/
def unspaced (cs : List Char) : List Char := cs.filter fun c => !isBlank c

/-- Without its blanks a text is its lexemes, one after the other. -/
theorem unspaced_of_tokenizeFrom {position : Nat} {cs : List Char} {t : Tokenized}
    (h : tokenizeFrom position cs = .ok t) :
    unspaced cs = (lexemes t.tokens).flatMap Lexeme.chars := by
  fun_induction tokenizeFrom position cs generalizing t with
  | case1 =>
      cases h
      rfl
  | case2 position c rest hc ih =>
      rw [unspaced, List.filter_cons_of_neg (by simp [hc])]
      exact ih h
  | case3 => cases h
  | case4 position c rest hc l hfirst _ after hafter ih =>
      cases h
      obtain ⟨-, tail, htail⟩ := Lexeme.first?_eq_some hfirst
      rw [← htail] at hafter ih ⊢
      rw [List.drop_left] at hafter ih
      have hclean : unspaced l.chars = l.chars := by
        refine List.filter_eq_self.mpr fun d hd => ?_
        rw [(Lexeme.spelled_of_first? hfirst).isBlank_eq_false d hd]
        rfl
      have hrest := ih hafter
      rw [unspaced] at hclean hrest
      rw [unspaced, List.filter_append, hclean, hrest]
      rfl
  | case5 => cases h

/-- Lexemes of which none joins the next one need no blanks between them. -/
theorem splits_flatMap {w : List Lexeme} (hspelled : ∀ l ∈ w, l.Spelled)
    (h : w.IsChain fun l m => l.Apart m.chars) : Splits (w.flatMap Lexeme.chars) w := by
  induction w with
  | nil => exact splits_nil
  | cons l w ih =>
      have hl := hspelled l List.mem_cons_self
      cases w with
      | nil => exact splits_nil.lexeme hl (Lexeme.apart_nil l)
      | cons m w =>
          obtain ⟨hapart, htail⟩ := List.isChain_cons_cons.mp h
          have hrest := ih (fun x hx => hspelled x (List.mem_cons_of_mem _ hx)) htail
          obtain ⟨c, cs, hchars, -⟩ := (hspelled m (by simp)).head
          rw [hchars] at hapart
          rw [List.flatMap_cons]
          refine hrest.lexeme hl ?_
          rw [List.flatMap_cons, hchars, List.cons_append]
          exact hapart

end DateRules
