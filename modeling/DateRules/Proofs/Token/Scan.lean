import DateRules.Proofs.Token.Places

/-!
# Scanning a text

A scan goes through a text in turns. Each turn skips a blank or reads the longest lexeme
at the position it has come to, and so gets further; the last one is at the end of the text
or at a character that begins no lexeme. `Scan.run` takes turns as long as it is allowed
to. One turn more than the text has characters is enough, and the result is that of
`tokenize` (`Scan.run_start`).

`Scan.Step` says what a turn does and `Scan.Sound` what all turns keep: the tokens found so
far are the longest at their positions and lie one after the other, and nothing but blanks
was skipped. From this `tokens_located` tells where the tokens of a text stand and where a
text that does not split into tokens fails.
-/

namespace DateRules

open Text

/-- The position that a scan has come to, and the tokens found before it. -/
structure Scan where
  position : Nat
  tokens : List Token

/-- What comes of a turn: the scan goes on, or has a result. -/
inductive Turn where
  | goesOn (next : Scan)
  | ends (result : Except StrayCharacter Tokenized)

namespace Scan

/-- The scan before its first turn. -/
def start : Scan := ⟨0, []⟩

/-- A turn of a scan through a text. -/
def turn (cs : List Char) (s : Scan) : Turn :=
  match cs.drop s.position with
  | [] => .ends (.ok ⟨s.tokens, s.position⟩)
  | c :: rest =>
      if isBlank c then .goesOn ⟨s.position + 1, s.tokens⟩
      else
        match Lexeme.first? (c :: rest) with
        | none => .ends (.error ⟨c, s.position⟩)
        | some l => .goesOn ⟨s.position + l.chars.length, s.tokens ++ [⟨l, s.position⟩]⟩

/-- The result of a scan, if it has one after a number of turns. -/
def run (cs : List Char) : Nat → Scan → Option (Except StrayCharacter Tokenized)
  | 0, _ => none
  | turns + 1, s =>
      match s.turn cs with
      | .goesOn next => run cs turns next
      | .ends result => some result

/-- What a turn does with which the scan goes on. -/
inductive Step (cs : List Char) (s : Scan) : Scan → Prop
  | blank {c : Char} (hc : cs[s.position]? = some c) (hblank : isBlank c) :
      Step cs s ⟨s.position + 1, s.tokens⟩
  | lexeme {c : Char} {l : Lexeme} (hc : cs[s.position]? = some c) (hblank : isBlank c = false)
      (hfirst : Lexeme.first? (cs.drop s.position) = some l) :
      Step cs s ⟨s.position + l.chars.length, s.tokens ++ [⟨l, s.position⟩]⟩

/-- What is so in the last turn of a scan. -/
inductive End (cs : List Char) (s : Scan) : Except StrayCharacter Tokenized → Prop
  | reached (h : cs.drop s.position = []) : End cs s (.ok ⟨s.tokens, s.position⟩)
  | stray {c : Char} (hc : cs[s.position]? = some c) (hblank : isBlank c = false)
      (hfirst : Lexeme.first? (cs.drop s.position) = none) :
      End cs s (.error ⟨c, s.position⟩)

/-- The scans that are reached in turns from the start. -/
inductive Reached (cs : List Char) : Scan → Prop
  | start : Reached cs start
  | step {s t : Scan} (h : Reached cs s) (hstep : Step cs s t) : Reached cs t

/-- The result that a scan will have: its tokens and those of the rest of the text. -/
def result (cs : List Char) (s : Scan) : Except StrayCharacter Tokenized :=
  (tokenizeFrom s.position (cs.drop s.position)).map fun t => ⟨s.tokens ++ t.tokens, t.textEnd⟩

/-- What a scan has made sure of about the text before its position. -/
structure Sound (cs : List Char) (s : Scan) : Prop where
  position_le : s.position ≤ cs.length
  found : ∀ token ∈ s.tokens, Lexeme.first? (cs.drop token.position) = some token.lexeme
  finish_le : ∀ token ∈ s.tokens, token.finish ≤ s.position
  ordered : s.tokens.Pairwise fun a b => a.finish ≤ b.position
  skipped : ∀ i c, i < s.position → cs[i]? = some c →
    (∀ token ∈ s.tokens, ¬ token.Covers i) → isBlank c
  apart : ∀ i c d, i + 1 = s.position → cs[i]? = some c → cs[i + 1]? = some d →
    isDigit c → isDigit d = false
  runs : ∀ token ∈ s.tokens, ∀ digits, token.lexeme = .number digits →
    DigitRun cs token.position digits

section Turns

variable {cs : List Char} {s t : Scan} {r : Except StrayCharacter Tokenized}

theorem step_of_turn (h : s.turn cs = .goesOn t) : Step cs s t := by
  unfold turn at h
  split at h
  · cases h
  · next c rest hdrop =>
      have hc := getElem?_of_drop_eq_cons hdrop
      split at h
      · next hblank =>
          cases h
          exact .blank hc hblank
      · next hblank =>
          split at h
          · cases h
          · next l hfirst =>
              cases h
              exact .lexeme hc (by simpa using hblank) (hdrop ▸ hfirst)

theorem end_of_turn (h : s.turn cs = .ends r) : End cs s r := by
  unfold turn at h
  split at h
  · next hdrop =>
      cases h
      exact .reached hdrop
  · next c rest hdrop =>
      have hc := getElem?_of_drop_eq_cons hdrop
      split at h
      · cases h
      · next hblank =>
          split at h
          · next hfirst =>
              cases h
              exact .stray hc (by simpa using hblank) (hdrop ▸ hfirst)
          · cases h

theorem Step.position_lt (h : Step cs s t) : s.position < t.position := by
  cases h with
  | blank => exact Nat.lt_succ_self _
  | lexeme _ _ hfirst => exact Nat.lt_add_of_pos_right (Lexeme.length_pos hfirst)

theorem Step.position_le (h : Step cs s t) : t.position ≤ cs.length := by
  cases h with
  | blank hc => exact (List.getElem?_eq_some_iff.mp hc).1
  | lexeme hc _ hfirst =>
      have hlt := (List.getElem?_eq_some_iff.mp hc).1
      have hle := (Lexeme.first?_eq_some hfirst).2.length_le
      rw [List.length_drop] at hle
      dsimp only
      omega

/-- No turn changes what the result will be. -/
theorem Step.result_eq (h : Step cs s t) : t.result cs = s.result cs := by
  cases h with
  | blank hc hblank =>
      simp only [result]
      rw [drop_eq_cons_of_getElem? hc, tokenizeFrom_blank hblank]
  | @lexeme c l hc hblank hfirst =>
      simp only [result]
      rw [drop_eq_cons_of_getElem? hc] at hfirst
      have hcons := tokenizeFrom_cons hblank hfirst s.position
      rw [← drop_eq_cons_of_getElem? hc, List.drop_drop] at hcons
      rw [hcons]
      cases tokenizeFrom (s.position + l.chars.length)
          (cs.drop (s.position + l.chars.length)) with
      | ok t => simp [Except.map, Tokenized.cons]
      | error e => rfl

theorem End.result_eq (h : End cs s r) : s.result cs = r := by
  cases h with
  | reached h =>
      rw [result, h]
      unfold tokenizeFrom
      simp [Except.map]
  | @stray c hc hblank hfirst =>
      rw [drop_eq_cons_of_getElem? hc] at hfirst
      rw [result, drop_eq_cons_of_getElem? hc]
      unfold tokenizeFrom
      rw [if_neg (by simp [hblank])]
      split
      · rfl
      · next hsome =>
          rw [hfirst] at hsome
          cases hsome

/-- Since each turn gets further, a scan has its result before it runs out of turns. -/
theorem run_eq {turns : Nat} (hle : s.position ≤ cs.length)
    (h : cs.length < s.position + turns) : run cs turns s = some (s.result cs) := by
  induction turns generalizing s with
  | zero => omega
  | succ turns ih =>
      rw [run]
      cases hturn : s.turn cs with
      | ends r => rw [(end_of_turn hturn).result_eq]
      | goesOn t =>
          have hstep := step_of_turn hturn
          have hlt := hstep.position_lt
          have hend := ih hstep.position_le (by omega)
          rw [← hstep.result_eq, ← hend]

theorem result_start (cs : List Char) : start.result cs = tokenizeFrom 0 cs := by
  change (tokenizeFrom 0 cs).map _ = _
  cases tokenizeFrom 0 cs <;> rfl

/-- A scan of a text ends, and its result is the tokens of the text. -/
theorem run_start (cs : List Char) : run cs (cs.length + 1) start = some (tokenizeFrom 0 cs) := by
  rw [run_eq (Nat.zero_le _) (by simp [start]), result_start]

theorem exists_end_of_run {turns : Nat} (h : run cs turns s = some r) (hs : Reached cs s) :
    ∃ t, Reached cs t ∧ End cs t r := by
  induction turns generalizing s with
  | zero => cases h
  | succ turns ih =>
      rw [run] at h
      split at h
      · next t hturn => exact ih h (hs.step (step_of_turn hturn))
      · next hturn =>
          cases h
          exact ⟨s, hs, end_of_turn hturn⟩

theorem exists_end (cs : List Char) : ∃ s, Reached cs s ∧ End cs s (tokenizeFrom 0 cs) :=
  exists_end_of_run (run_start cs) .start

/-- A text that is cut off where a turn ends is scanned like the whole text up to there. -/
theorem Step.take (h : Step cs s t) {n : Nat} (hn : t.position ≤ n) : Step (cs.take n) s t := by
  cases h with
  | blank hc hblank =>
      refine .blank ?_ hblank
      rwa [List.getElem?_take_of_lt hn]
  | @lexeme c l hc hblank hfirst =>
      have hpos := Lexeme.length_pos hfirst
      dsimp only at hn
      refine .lexeme ?_ hblank ?_
      · rwa [List.getElem?_take_of_lt (by omega)]
      · rw [List.drop_take]
        refine Lexeme.first?_of_prefix hfirst ?_ (List.take_prefix _ _)
        exact List.prefix_take_iff.mpr ⟨(Lexeme.first?_eq_some hfirst).2, by omega⟩

theorem Reached.take (h : Reached cs s) {n : Nat} (hn : s.position ≤ n) :
    Reached (cs.take n) s := by
  induction h with
  | start => exact .start
  | step _ hstep ih =>
      have hlt := hstep.position_lt
      exact (ih (by omega)).step (hstep.take hn)

theorem Reached.result_eq (h : Reached cs s) : s.result cs = tokenizeFrom 0 cs := by
  induction h with
  | start => exact result_start cs
  | step _ hstep ih => rw [hstep.result_eq, ih]

/-- The text before the position of a scan splits into the tokens that were found. -/
theorem Reached.tokenize_take (h : Reached cs s) :
    tokenize (String.ofList (cs.take s.position)) = .ok ⟨s.tokens, s.position⟩ := by
  have hreached := h.take (Nat.le_refl _)
  have hend : (cs.take s.position).drop s.position = [] := by simp
  rw [tokenize, String.toList_ofList, ← hreached.result_eq]
  exact End.result_eq (.reached hend)

end Turns

section Soundness

variable {cs : List Char} {s t : Scan}

theorem sound_start (cs : List Char) : Sound cs start where
  position_le := Nat.zero_le _
  found := by simp [start]
  finish_le := by simp [start]
  ordered := .nil
  skipped := by simp [start]
  apart := by simp [start]
  runs := by simp [start]

theorem Sound.blank (h : Sound cs s) {c : Char} (hc : cs[s.position]? = some c)
    (hblank : isBlank c) : Sound cs ⟨s.position + 1, s.tokens⟩ where
  position_le := (List.getElem?_eq_some_iff.mp hc).1
  found := h.found
  finish_le := fun token htoken => Nat.le_succ_of_le (h.finish_le token htoken)
  ordered := h.ordered
  skipped := by
    intro i d hi hd huncovered
    rcases Nat.lt_or_eq_of_le (Nat.le_of_lt_succ hi) with hlt | rfl
    · exact h.skipped i d hlt hd huncovered
    · cases hc.symm.trans hd
      exact hblank
  apart := by
    intro i d e hi hd _ hdigit
    obtain rfl : i = s.position := Nat.succ.inj hi
    cases hc.symm.trans hd
    rw [isBlank_ne_isDigit hdigit] at hblank
    cases hblank
  runs := h.runs

/-- No digit stands before the digits that a scan comes to. -/
theorem Sound.before_digits (h : Sound cs s) {digits : List Char} (hne : digits ≠ [])
    (hdigits : ∀ c ∈ digits, isDigit c) (hbegins : digits <+: cs.drop s.position) :
    ∀ i c, i + 1 = s.position → cs[i]? = some c → isDigit c = false := by
  intro i c hi hc
  obtain ⟨d, ds, rfl⟩ := List.exists_cons_of_ne_nil hne
  obtain ⟨tail, htail⟩ := hbegins
  have hd : cs[i + 1]? = some d := by
    rw [hi]
    exact getElem?_of_drop_eq_cons htail.symm
  refine Bool.eq_false_iff.mpr fun hdigit => ?_
  have hnot := h.apart i c d hi hc hd hdigit
  rw [hdigits d List.mem_cons_self] at hnot
  cases hnot

theorem Sound.lexeme (h : Sound cs s) {l : Lexeme}
    (hfirst : Lexeme.first? (cs.drop s.position) = some l)
    (hle : s.position + l.chars.length ≤ cs.length) :
    Sound cs ⟨s.position + l.chars.length, s.tokens ++ [⟨l, s.position⟩]⟩ where
  position_le := hle
  found := by
    rw [List.forall_mem_append]
    exact ⟨h.found, List.forall_mem_singleton.mpr hfirst⟩
  finish_le := by
    rw [List.forall_mem_append]
    refine ⟨fun token htoken => ?_, List.forall_mem_singleton.mpr (Nat.le_refl _)⟩
    exact Nat.le_add_right_of_le (h.finish_le token htoken)
  ordered := by
    refine List.pairwise_append.mpr ⟨h.ordered, List.pairwise_singleton _ _, ?_⟩
    intro token htoken other hother
    obtain rfl := List.mem_singleton.mp hother
    exact h.finish_le token htoken
  skipped := by
    intro i c hi hc huncovered
    rw [List.forall_mem_append, List.forall_mem_singleton] at huncovered
    rcases Nat.lt_or_ge i s.position with hlt | hge
    · exact h.skipped i c hlt hc huncovered.1
    · exact absurd ⟨hge, hi⟩ huncovered.2
  apart := by
    intro i c d hi hc hd hdigit
    have hpos := Lexeme.length_pos hfirst
    dsimp only at hi
    have hmem := Lexeme.mem_chars_of_getElem? (Lexeme.first?_eq_some hfirst).2
      (by omega) (by omega) hc
    obtain ⟨digits, rfl⟩ := Lexeme.exists_eq_number hmem hdigit
    rw [hi] at hd
    exact isDigit_after_number hfirst hd
  runs := by
    rw [List.forall_mem_append, List.forall_mem_singleton]
    refine ⟨h.runs, ?_⟩
    rintro digits rfl
    obtain ⟨⟨hne, hdigits⟩, hbegins, -⟩ := Lexeme.first?_eq_some_iff.mp hfirst
    exact ⟨hne, hdigits, hbegins, h.before_digits hne hdigits hbegins,
      fun c => isDigit_after_number hfirst⟩

theorem Step.sound (h : Step cs s t) (hs : Sound cs s) : Sound cs t := by
  have hle := h.position_le
  cases h with
  | blank hc hblank => exact hs.blank hc hblank
  | lexeme _ _ hfirst => exact hs.lexeme hfirst hle

theorem Reached.sound (h : Reached cs s) : Sound cs s := by
  induction h with
  | start => exact sound_start cs
  | step _ hstep ih => exact hstep.sound ih

end Soundness

end Scan

section Outcome

variable {cs : List Char} {s : Scan}

theorem Scan.Sound.located (h : s.Sound cs) (hend : cs.drop s.position = []) :
    Located cs ⟨s.tokens, s.position⟩ where
  increasing := by
    refine h.ordered.imp_of_mem fun {a b} ha _ hle => ?_
    have hpos := Lexeme.length_pos (h.found a ha)
    rw [Token.finish] at hle
    omega
  disjoint := h.ordered
  slice := fun token htoken =>
    (List.prefix_iff_eq_take.mp (Lexeme.first?_eq_some (h.found token htoken)).2).symm
  outside := by
    intro i c hc
    have hlt := (List.getElem?_eq_some_iff.mp hc).1
    exact h.skipped i c (Nat.lt_of_lt_of_le hlt (List.drop_eq_nil_iff.mp hend)) hc
  textEnd_eq := Nat.le_antisymm h.position_le (List.drop_eq_nil_iff.mp hend)
  number := h.runs
  keyword := by
    intro token htoken k hk
    have hword := Lexeme.keyword_mem_words k
    rw [← hk] at hword
    exact longestWord_of_first? hword (h.found token htoken)
  operator := by
    intro token htoken o ho
    have hword := Lexeme.operator_mem_words o
    rw [← ho] at hword
    exact longestWord_of_first? hword (h.found token htoken)

theorem Scan.Reached.stray_at (h : s.Reached cs) {c : Char} (hc : cs[s.position]? = some c)
    (hblank : isBlank c = false) (hfirst : Lexeme.first? (cs.drop s.position) = none) :
    StrayCharacter.At cs ⟨c, s.position⟩ := by
  have hnone := Lexeme.first?_eq_none_iff.mp hfirst
  have hdrop := drop_eq_cons_of_getElem? hc
  have hbegins : ∀ l : Lexeme, l.chars = [c] → l.chars <+: cs.drop s.position := by
    intro l hl
    rw [hl, hdrop]
    exact ⟨_, rfl⟩
  refine ⟨⟨_, h.tokenize_take⟩, hc, hblank, ?_, ?_, ?_, ?_⟩
  · refine Bool.eq_false_iff.mpr fun hdigit => ?_
    exact hnone (.number [c]) ⟨by simp, by simpa using hdigit⟩ (hbegins _ rfl)
  · rintro rfl
    exact hnone .opening trivial (hbegins _ rfl)
  · rintro rfl
    exact hnone .closing trivial (hbegins _ rfl)
  · exact fun word hword => hnone word (Lexeme.spelled_of_mem_words hword)

end Outcome

/-- A text splits into tokens, each the longest at its place, with nothing but blanks left
out, or it has a character where no token begins and splits up to there. Which of the two
it is shows in at most one turn more than the text has characters. -/
theorem tokens_located (text : String) :
    (∀ t, tokenize text = .ok t → Located text.toList t) ∧
    (∀ stray, tokenize text = .error stray → stray.At text.toList) ∧
    Scan.run text.toList (text.length + 1) .start = some (tokenize text) := by
  obtain ⟨s, hreached, hend⟩ := Scan.exists_end text.toList
  rw [← tokenize] at hend
  refine ⟨?_, ?_, Scan.run_start text.toList⟩
  · intro t ht
    rw [ht] at hend
    cases hend with
    | reached h => exact hreached.sound.located h
  · intro stray hstray
    rw [hstray] at hend
    cases hend with
    | stray hc hblank hfirst => exact hreached.stray_at hc hblank hfirst

/-- A word that begins with two shorter ones, and half an operator. -/
theorem tokens_located_monthcount :
    (∃ t, tokenize "monthcount>=12" = .ok t ∧
      lexemes t.tokens = [.keyword (.quantity .monthCount), .operator .atLeast,
        .number ['1', '2']] ∧
      Located "monthcount>=12".toList t) ∧
    tokenize "mon = 1" = .error ⟨'=', 4⟩ ∧
      StrayCharacter.At "mon = 1".toList ⟨'=', 4⟩ := by
  have hsplit : tokenize "monthcount>=12" =
      .ok ⟨[⟨.keyword (.quantity .monthCount), 0⟩, ⟨.operator .atLeast, 10⟩,
        ⟨.number ['1', '2'], 12⟩], 14⟩ := by
    decide +kernel
  have hstray : tokenize "mon = 1" = .error ⟨'=', 4⟩ := by
    decide +kernel
  exact ⟨⟨_, hsplit, rfl, (tokens_located _).1 _ hsplit⟩, hstray, (tokens_located _).2.1 _ hstray⟩

end DateRules
