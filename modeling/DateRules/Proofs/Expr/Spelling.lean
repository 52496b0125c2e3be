import DateRules.Expr.Render
import DateRules.Parser.Diagnosis
import DateRules.Proofs.Grammar.Literals
import DateRules.Proofs.Token.Spelling

/-!
# The words that rendering writes

`IntExpr.signedSpelling` and `BoolExpr.signedSpelling` are the lexemes of a rendered
tree, and `IntExpr.spells_signed` and `BoolExpr.spells_signed` say that the rendered text
splits into them, also where a blank or a closing parenthesis follows. A number has no
sign, so that a negative literal has a minus before it as a negation has.

Where no literal is negative, `IntExpr.spelling` and `BoolExpr.spelling` are the same
lexemes (`IntExpr.spells`, `BoolExpr.spells`).

There is one lemma for each way in which rendering puts texts together:
`Spells.prefixed`, `Spells.grouped`, `Spells.between` and `Spells.binary`.
-/

namespace DateRules

open Text

/-- The operator that the symbol of an arithmetic operation writes. -/
def Arithmetic.operator : Arithmetic → Operator
  | add => .plus
  | subtract => .minus
  | multiply => .times
  | divide => .divide
  | modulo => .modulo

def Connective.operator : Connective → Operator
  | and => .and
  | or => .or
  | same => .equal

def Comparison.operator : Comparison → Operator
  | equal => .equal
  | greater => .greater
  | less => .less

theorem Arithmetic.text_operator (op : Arithmetic) : op.operator.text = op.symbol := by
  cases op <;> rfl

theorem Connective.text_operator (op : Connective) : op.operator.text = op.symbol := by
  cases op <;> rfl

theorem Comparison.text_operator (op : Comparison) : op.operator.text = op.symbol := by
  cases op <;> rfl

/-- A word in parentheses. -/
def grouped (w : List Lexeme) : List Lexeme := .opening :: (w ++ [.closing])

/-- The lexemes of a rendered integer expression. -/
def IntExpr.spelling : IntExpr → List Lexeme
  | .literal v => [.number (Nat.toDigits 10 v.toNat)]
  | .quantity q => [.keyword (.quantity q)]
  | .negate (.negate e) => .operator .minus :: grouped (negate e).spelling
  | .negate e => .operator .minus :: e.spelling
  | .arith op l r => grouped (l.spelling ++ .operator op.operator :: r.spelling)

def BoolExpr.spelling : BoolExpr → List Lexeme
  | .literal value => [.keyword (.truth value)]
  | .statement s => [.keyword (.statement s)]
  | .not (.not e) => .operator .not :: grouped (BoolExpr.not e).spelling
  | .not e => .operator .not :: e.spelling
  | .connect op l r => grouped (l.spelling ++ .operator op.operator :: r.spelling)
  | .compare op l r => grouped (l.spelling ++ .operator op.operator :: r.spelling)

/-- The lexemes of a literal of either sign. -/
def literalSpelling (v : Int) : List Lexeme :=
  if v < 0 then [.operator .minus, .number (Nat.toDigits 10 v.natAbs)]
  else [.number (Nat.toDigits 10 v.natAbs)]

/-- The lexemes of a rendered integer expression that may have negative literals. -/
def IntExpr.signedSpelling : IntExpr → List Lexeme
  | .literal v => literalSpelling v
  | .quantity q => [.keyword (.quantity q)]
  | .negate (.negate e) => .operator .minus :: grouped (negate e).signedSpelling
  | .negate e => .operator .minus :: e.signedSpelling
  | .arith op l r => grouped (l.signedSpelling ++ .operator op.operator :: r.signedSpelling)

def BoolExpr.signedSpelling : BoolExpr → List Lexeme
  | .literal value => [.keyword (.truth value)]
  | .statement s => [.keyword (.statement s)]
  | .not (.not e) => .operator .not :: grouped (BoolExpr.not e).signedSpelling
  | .not e => .operator .not :: e.signedSpelling
  | .connect op l r => grouped (l.signedSpelling ++ .operator op.operator :: r.signedSpelling)
  | .compare op l r => grouped (l.signedSpelling ++ .operator op.operator :: r.signedSpelling)

theorem literalSpelling_of_nonneg {v : Int} (h : 0 ≤ v) :
    literalSpelling v = [.number (Nat.toDigits 10 v.toNat)] := by
  rw [literalSpelling, if_neg (Int.not_lt.mpr h)]
  congr
  omega

theorem IntExpr.signedSpelling_of_nonneg {t : IntExpr} (h : ∀ v ∈ t.literals, 0 ≤ v) :
    t.signedSpelling = t.spelling := by
  induction t using spelling.induct with
  | case1 v => exact literalSpelling_of_nonneg (h v (List.mem_singleton_self v))
  | case2 q => rfl
  | case3 e ih => rw [signedSpelling, spelling, ih h]
  | case4 e hne ih => rw [signedSpelling, spelling, ih h] <;> exact hne
  | case5 op l r ihl ihr =>
      rw [signedSpelling, spelling, ihl fun v hv => h v (List.mem_append_left _ hv),
        ihr fun v hv => h v (List.mem_append_right _ hv)]

theorem BoolExpr.signedSpelling_of_nonneg {t : BoolExpr} (h : ∀ v ∈ t.literals, 0 ≤ v) :
    t.signedSpelling = t.spelling := by
  induction t using spelling.induct with
  | case1 value => rfl
  | case2 s => rfl
  | case3 e ih => rw [signedSpelling, spelling, ih h]
  | case4 e hne ih => rw [signedSpelling, spelling, ih h] <;> exact hne
  | case5 op l r ihl ihr =>
      rw [signedSpelling, spelling, ihl fun v hv => h v (List.mem_append_left _ hv),
        ihr fun v hv => h v (List.mem_append_right _ hv)]
  | case6 op l r =>
      rw [signedSpelling, spelling,
        IntExpr.signedSpelling_of_nonneg fun v hv => h v (List.mem_append_left _ hv),
        IntExpr.signedSpelling_of_nonneg fun v hv => h v (List.mem_append_right _ hv)]

section Texts

/-- A text ends, or goes on with a blank or with a closing parenthesis. -/
def Ends (rest : List Char) : Prop := ∀ c ∈ rest.head?, c = ' ' ∨ c = ')'

theorem ends_nil : Ends [] := by
  intro c hc
  cases hc

theorem ends_blank (rest : List Char) : Ends (' ' :: rest) := by
  rintro c ⟨⟩
  exact .inl rfl

theorem ends_closing (rest : List Char) : Ends (')' :: rest) := by
  rintro c ⟨⟩
  exact .inr rfl

theorem not_mem_extensions (l : Lexeme) {c : Char} (hc : c = ' ' ∨ c = ')') :
    c ∉ l.extensions := by
  intro h
  obtain ⟨word, hword, hmem⟩ := Lexeme.exists_word_of_mem_extensions h
  have hall : ∀ w ∈ words, ' ' ∉ w.chars ∧ ')' ∉ w.chars := by decide
  rcases hc with rfl | rfl
  · exact (hall word hword).1 hmem
  · exact (hall word hword).2 hmem

/-- No lexeme is joined by what follows it there. -/
theorem Ends.apart {rest : List Char} (h : Ends rest) (l : Lexeme) : l.Apart rest := by
  intro c hc
  have hends := h c hc
  cases l with
  | number digits => rcases hends with rfl | rfl <;> exact Bool.false_ne_true
  | keyword k => exact not_mem_extensions _ hends
  | operator o => exact not_mem_extensions _ hends
  | opening => exact id
  | closing => exact id

/-- A text splits into the given lexemes, before anything that does not go on with
the last of them. -/
def Spells (text : String) (u : List Lexeme) : Prop :=
  ∀ rest w, Ends rest → Splits rest w → Splits (text.toList ++ rest) (u ++ w)

theorem Spells.splits {text : String} {u : List Lexeme} (h : Spells text u) :
    Splits text.toList u := by
  have hsplits := h _ _ ends_nil splits_nil
  rwa [List.append_nil, List.append_nil] at hsplits

theorem spells_lexeme {l : Lexeme} (h : l.Spelled) : Spells l.text [l] := by
  intro rest w hends hsplits
  rw [Lexeme.text, String.toList_ofList]
  exact hsplits.lexeme h (hends.apart l)

theorem spells_keyword (k : Keyword) : Spells k.text [.keyword k] := by
  have h := spells_lexeme (l := .keyword k) trivial
  rwa [Lexeme.text, Lexeme.chars, String.ofList_toList] at h

variable {text left right symbol : String} {u v : List Lexeme}

theorem Spells.prefixed {o : Operator} (h : Spells text u)
    (hnext : (Lexeme.operator o).Apart text.toList) :
    Spells (o.text ++ text) (.operator o :: u) := by
  intro rest w hends hsplits
  rw [String.toList_append, List.append_assoc]
  refine Splits.lexeme (l := .operator o) trivial ?_ (h _ _ hends hsplits)
  cases htext : text.toList with
  | nil => exact hends.apart _
  | cons d cs =>
      rw [htext] at hnext
      exact hnext

theorem Spells.grouped (h : Spells text u) : Spells ("(" ++ text ++ ")") (grouped u) := by
  intro rest w hends hsplits
  have hclosing := hsplits.lexeme (l := .closing) trivial fun _ _ => id
  have hinside := h _ _ (ends_closing rest) hclosing
  have hopening := hinside.lexeme (l := .opening) trivial fun _ _ => id
  simpa [DateRules.grouped, String.toList_append, Lexeme.chars] using hopening

theorem Spells.prefixed_grouped {o : Operator} (h : Spells text u)
    (hnext : ¬ (Lexeme.operator o).JoinedBy '(') :
    Spells (o.text ++ "(" ++ text ++ ")") (.operator o :: DateRules.grouped u) := by
  have hprefixed := h.grouped.prefixed (o := o) (by
    rw [String.append_assoc, String.toList_append]
    exact Lexeme.apart_cons hnext _)
  simpa only [String.append_assoc] using hprefixed

/-- Two texts with an operator between them, and blanks around it. -/
theorem Spells.between {o : Operator} (hsymbol : o.text = symbol) (hleft : Spells left u)
    (hright : Spells right v) :
    Spells (left ++ " " ++ symbol ++ " " ++ right) (u ++ .operator o :: v) := by
  intro rest w hends hsplits
  have hafter := (hright _ _ hends hsplits).blank (c := ' ') (by decide)
  have hoperator := hafter.lexeme (l := .operator o) trivial ((ends_blank _).apart _)
  have hbefore := hleft _ _ (ends_blank _) (hoperator.blank (c := ' ') (by decide))
  simpa [String.toList_append, Lexeme.chars, hsymbol] using hbefore

theorem Spells.binary {o : Operator} (hsymbol : o.text = symbol) (hleft : Spells left u)
    (hright : Spells right v) :
    Spells (renderBinary symbol left right) (DateRules.grouped (u ++ .operator o :: v)) := by
  have hgrouped := (hleft.between hsymbol hright).grouped
  simpa only [renderBinary, String.append_assoc] using hgrouped

end Texts

/-- Integers that a number can write: those without a sign that are not too long. -/
structure Writable (v : Int) : Prop where
  nonneg : 0 ≤ v
  short : (Nat.toDigits 10 v.toNat).length ≤ maxDigits

/-- A minus is part of no longer word. -/
theorem minus_apart (rest : List Char) : (Lexeme.operator .minus).Apart rest := by
  have hextensions : (Lexeme.operator .minus).extensions = [] := by decide
  apply Lexeme.apart_operator
  rw [hextensions]
  exact fun _ _ => List.not_mem_nil

theorem spells_natCast (n : Nat) : Spells (toString (n : Int)) [.number (Nat.toDigits 10 n)] := by
  have hdigits : ∀ c ∈ Nat.toDigits 10 n, isDigit c := by
    intro c hc
    exact Nat.isDigit_of_mem_toDigits (by decide) (by decide) hc
  have hspelled : (Lexeme.number (Nat.toDigits 10 n)).Spelled := ⟨Nat.toDigits_ne_nil, hdigits⟩
  have hspells := spells_lexeme hspelled
  rw [Lexeme.text, Lexeme.chars, ← Nat.toString_eq_ofList_toDigits] at hspells
  exact hspells

theorem spells_toString (v : Int) : Spells (toString v) (literalSpelling v) := by
  cases v with
  | ofNat n =>
      have hnonneg : 0 ≤ Int.ofNat n := Int.natCast_nonneg n
      rw [literalSpelling_of_nonneg hnonneg]
      exact spells_natCast n
  | negSucc n =>
      have htext : toString (Int.negSucc n) = Operator.minus.text ++ toString (n + 1 : Nat) := rfl
      have hspells : Spells (toString (n + 1 : Nat)) _ := spells_natCast (n + 1)
      rw [literalSpelling, if_pos (Int.negSucc_lt_zero n), htext]
      exact hspells.prefixed (minus_apart _)

namespace IntExpr

/-- Rendering an integer expression writes its spelling. -/
theorem spells_signed (t : IntExpr) : Spells t.render t.signedSpelling := by
  induction t using signedSpelling.induct with
  | case1 v => exact spells_toString v
  | case2 q => exact spells_keyword (.quantity q)
  | case3 e ih =>
      have hgrouped := ih.prefixed_grouped (o := .minus) (by decide)
      have htext : Operator.minus.text ++ "(" = "-(" := by decide
      rw [htext] at hgrouped
      exact hgrouped
  | case4 e hne ih =>
      have hprefixed := ih.prefixed (minus_apart _)
      rw [render, signedSpelling]
      · exact hprefixed
      · exact hne
      · exact hne
  | case5 op l r ihl ihr => exact ihl.binary op.text_operator ihr

theorem spells (t : IntExpr) (h : ∀ v ∈ t.literals, 0 ≤ v) : Spells t.render t.spelling := by
  rw [← signedSpelling_of_nonneg h]
  exact t.spells_signed

end IntExpr

namespace BoolExpr

theorem head_render_ne (t : BoolExpr) : t.render.toList.head? ≠ some '=' := by
  fun_cases render t with
  | case1 => decide
  | case2 => decide
  | case3 s => cases s <;> decide
  | case4 e => simp [String.toList_append]
  | case5 e hne => simp [String.toList_append]
  | case6 op l r => simp [renderBinary, String.toList_append]
  | case7 op l r => simp [renderBinary, String.toList_append]

/-- An exclamation mark before a rendered expression is no part of a relation. -/
theorem apart_render (t : BoolExpr) : (Lexeme.operator .not).Apart t.render.toList := by
  have hextensions : (Lexeme.operator .not).extensions = ['='] := by decide
  apply Lexeme.apart_operator
  rw [hextensions]
  intro c hc hmem
  obtain rfl := List.mem_singleton.mp hmem
  exact t.head_render_ne hc

/-- Rendering a boolean expression writes its spelling. -/
theorem spells_signed (t : BoolExpr) : Spells t.render t.signedSpelling := by
  induction t using signedSpelling.induct with
  | case1 value =>
      cases value with
      | false => exact spells_keyword (.truth false)
      | true => exact spells_keyword (.truth true)
  | case2 s => exact spells_keyword (.statement s)
  | case3 e ih =>
      have hgrouped := ih.prefixed_grouped (o := .not) (by decide)
      have htext : Operator.not.text ++ "(" = "!(" := by decide
      rw [htext] at hgrouped
      exact hgrouped
  | case4 e hne ih =>
      have hprefixed := ih.prefixed e.apart_render
      rw [render, signedSpelling]
      · exact hprefixed
      · exact hne
      · exact hne
  | case5 op l r ihl ihr => exact ihl.binary op.text_operator ihr
  | case6 op l r => exact l.spells_signed.binary op.text_operator r.spells_signed

theorem spells (t : BoolExpr) (h : ∀ v ∈ t.literals, 0 ≤ v) : Spells t.render t.spelling := by
  rw [← signedSpelling_of_nonneg h]
  exact t.spells_signed

end BoolExpr

end DateRules
