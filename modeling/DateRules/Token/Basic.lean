import DateRules.Calendar.Week
import DateRules.Expr.Basic

/-!
# Tokens

The words of date expressions. A `Lexeme` is a word or a run of digits, a
`Token` is a lexeme with its position in the source text, counted in characters
from 0.

`vocabulary` lists the words that are spelled out, longest first, so that the
first of them that begins a text is the longest that does.
-/

namespace DateRules

/-- The words made of letters. -/
inductive Keyword where
  | quantity (quantity : Quantity)
  | statement (statement : Statement)
  /-- A weekday by its name, or by its abbreviation if `short`. -/
  | weekday (weekday : Weekday) (short : Bool)
  | truth (value : Bool)
deriving DecidableEq, Repr

namespace Keyword

def text : Keyword → String
  | quantity q => q.keyword
  | statement s => s.keyword
  | weekday w false => w.name
  | weekday w true => w.abbreviation
  | truth true => "true"
  | truth false => "false"

def all : List Keyword :=
  Quantity.all.map quantity ++ Statement.all.map statement ++
    Weekday.all.map (weekday · false) ++ Weekday.all.map (weekday · true) ++
    [truth true, truth false]

theorem mem_all (k : Keyword) : k ∈ all := by
  rcases k with q | s | ⟨w, _ | _⟩ | _ | _
  · cases q <;> decide
  · cases s <;> decide
  · cases w <;> decide
  · cases w <;> decide
  · decide
  · decide

end Keyword

/-- The words made of operator characters. -/
inductive Operator where
  | and
  | or
  | equal
  | unequal
  | atLeast
  | atMost
  | plus
  | minus
  | times
  | divide
  | modulo
  | not
  | greater
  | less
deriving DecidableEq, Repr

namespace Operator

def text : Operator → String
  | and => "&&"
  | or => "||"
  | equal => "=="
  | unequal => "!="
  | atLeast => ">="
  | atMost => "<="
  | plus => "+"
  | minus => "-"
  | times => "*"
  | divide => "/"
  | modulo => "%"
  | not => "!"
  | greater => ">"
  | less => "<"

def all : List Operator :=
  [and, or, equal, unequal, atLeast, atMost, plus, minus, times, divide, modulo, not,
    greater, less]

theorem mem_all (o : Operator) : o ∈ all := by
  cases o <;> decide

end Operator

/-- What a token is, without its position. -/
inductive Lexeme where
  | number (digits : List Char)
  | keyword (keyword : Keyword)
  | operator (operator : Operator)
  | opening
  | closing
deriving DecidableEq, Repr

namespace Lexeme

/-- The characters of a lexeme. -/
def chars : Lexeme → List Char
  | number digits => digits
  | keyword k => k.text.toList
  | operator o => o.text.toList
  | opening => ['(']
  | closing => [')']

def text (l : Lexeme) : String := String.ofList l.chars

end Lexeme

/-- A lexeme and the position of its first character. -/
structure Token where
  lexeme : Lexeme
  position : Nat
deriving DecidableEq, Repr

/-- The lexemes of a token list. -/
abbrev lexemes (tokens : List Token) : List Lexeme := tokens.map Token.lexeme

/-- The words that are spelled out. -/
def words : List Lexeme :=
  Keyword.all.map .keyword ++ Operator.all.map .operator

/-- The words that are spelled out, longest first. -/
def vocabulary : List Lexeme :=
  [.keyword (.statement .isLeapYear), .keyword (.quantity .monthCount),
   .keyword (.weekday .wednesday false), .keyword (.statement .isWeekend),
   .keyword (.quantity .yearCount), .keyword (.weekday .thursday false),
   .keyword (.weekday .saturday false), .keyword (.statement .isEaster),
   .keyword (.weekday .tuesday false), .keyword (.quantity .weekday),
   .keyword (.quantity .yearDay), .keyword (.weekday .monday false),
   .keyword (.weekday .friday false), .keyword (.weekday .sunday false),
   .keyword (.quantity .julian), .keyword (.quantity .easter), .keyword (.quantity .month),
   .keyword (.truth false), .keyword (.quantity .year), .keyword (.truth true),
   .keyword (.weekday .monday true), .keyword (.weekday .tuesday true),
   .keyword (.weekday .wednesday true), .keyword (.weekday .thursday true),
   .keyword (.weekday .friday true), .keyword (.weekday .saturday true),
   .keyword (.weekday .sunday true), .keyword (.quantity .day), .operator .and,
   .operator .or, .operator .equal, .operator .unequal, .operator .atLeast,
   .operator .atMost, .operator .plus, .operator .minus, .operator .times,
   .operator .divide, .operator .modulo, .operator .not, .operator .greater,
   .operator .less]

theorem mem_vocabulary {word : Lexeme} : word ∈ vocabulary ↔ word ∈ words := by
  have hsub : ∀ w ∈ vocabulary, w ∈ words := by decide
  have hsup : ∀ w ∈ words, w ∈ vocabulary := by decide
  exact ⟨hsub word, hsup word⟩

theorem vocabulary_longest_first :
    vocabulary.Pairwise fun a b => b.chars.length ≤ a.chars.length := by
  decide

/-- The longest word that a text begins with, if it begins with any. -/
def longestWord? (cs : List Char) : Option Lexeme :=
  vocabulary.find? fun word => word.chars.isPrefixOf cs

/-- A word found at the start of a text is one of the words, begins the text,
and no longer word does. -/
theorem longestWord?_eq_some {cs : List Char} {word : Lexeme} (h : longestWord? cs = some word) :
    word ∈ words ∧ word.chars <+: cs ∧
      ∀ other ∈ words, other.chars <+: cs → other.chars.length ≤ word.chars.length := by
  obtain ⟨hbegins, before, after, hsplit, hbefore⟩ := List.find?_eq_some_iff_append.mp h
  have hmem : word ∈ vocabulary := hsplit ▸ List.mem_append_right _ List.mem_cons_self
  refine ⟨mem_vocabulary.mp hmem, List.isPrefixOf_iff_prefix.mp hbegins, ?_⟩
  intro other hother hstarts
  have hsorted := vocabulary_longest_first
  rw [hsplit] at hsorted
  rcases List.mem_append.mp (hsplit ▸ mem_vocabulary.mpr hother) with hin | hin
  · have hnot := hbefore other hin
    rw [List.isPrefixOf_iff_prefix.mpr hstarts] at hnot
    exact absurd hnot (by decide)
  · rcases List.mem_cons.mp hin with rfl | hin
    · exact Nat.le_refl _
    · exact List.rel_of_pairwise_cons (List.pairwise_append.mp hsorted).2.1 hin

theorem longestWord?_eq_none {cs : List Char} :
    longestWord? cs = none ↔ ∀ word ∈ words, ¬ word.chars <+: cs := by
  simp only [longestWord?, List.find?_eq_none, mem_vocabulary, List.isPrefixOf_iff_prefix]

end DateRules
