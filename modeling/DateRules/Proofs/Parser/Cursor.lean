import DateRules.Parser.Source

/-!
# The parsers on a cursor

The parsers of the two sorts can also be written with one cursor that moves over the token list
and that has to be put back where a group is refused. There is an end mark after the last token,
and a place after the end mark cannot be looked at.

The operators of a sort are read by a loop that takes the least rank of operators that it may
read and calls itself for the operand on the right. The routines call each other without
counting anything down. `step` says what a routine does with the help of the others, and
`runWithin` runs it with calls that are nested up to a given depth only. It gives nothing where
this is not deep enough.

A cursor remembers all places where it has been, so that a statement about the end of a run can
also speak of what has been given up on the way.
-/

namespace DateRules

namespace ExprSort

/-- The trees of a sort. -/
abbrev Tree : ExprSort → Type
  | int => IntExpr
  | bool => BoolExpr

/-- The infix operators of the lower rank. -/
def looseJoin : (s : ExprSort) → Lexeme → Option (s.Tree → s.Tree → s.Tree)
  | int => Parser.sumJoin
  | bool => Parser.equivalenceJoin

/-- The infix operators of the higher rank. -/
def tightJoin : (s : ExprSort) → Lexeme → Option (s.Tree → s.Tree → s.Tree)
  | int => Parser.productJoin
  | bool => Parser.junctionJoin

/-- The prefix operators. -/
def prefixApply : (s : ExprSort) → Lexeme → Option (s.Tree → s.Tree)
  | int => Parser.signApply
  | bool => Parser.negationApply

end ExprSort

namespace Parser

/-- An infix operator: one of a higher rank binds tighter. -/
structure Infix (α : Type) where
  rank : Nat
  leftward : Bool
  build : α → α → α

/-- The least rank of the operators in the operand on the right. -/
def Infix.leastOnRight {α : Type} (op : Infix α) : Nat :=
  if op.leftward then op.rank + 1 else op.rank

/-- The infix operator that a lexeme is. -/
def infixOf (s : ExprSort) (x : Lexeme) : Option (Infix s.Tree) :=
  match s.looseJoin x with
  | some f => some ⟨1, true, f⟩
  | none => (s.tightJoin x).map fun f => ⟨2, true, f⟩

/-- A place in a token list, with the places where the cursor has been put before, the latest
one first. -/
structure Cursor where
  position : Nat
  trail : List Nat

def Cursor.moveTo (c : Cursor) (position : Nat) : Cursor := ⟨position, position :: c.trail⟩

/-- The ways in which a routine ends without a tree. -/
inductive Abort where
  /-- It looks at a place after the end mark. -/
  | outside
  /-- It stops as a parser does. -/
  | stopped (stop : Stop)

/-- What happens to a cursor, if anything is said of it. -/
abbrev Course (α : Type) := ExceptT Abort (StateT Cursor Option) α

/-- The tokens and the end mark after them. -/
def marks (tokens : List Token) : List (Option Token) := tokens.map some ++ [none]

/-- Stops as a parser does. -/
def halt {α : Type} (stop : Stop) : Course α := throw (.stopped stop)

/-- Looks at the mark under the cursor. -/
def peek (tokens : List Token) : Course (Option Token) := fun c =>
  match (marks tokens)[c.position]? with
  | none => some (.error .outside, c)
  | some mark => some (.ok mark, c)

/-- Takes the mark under the cursor and goes on to the next one, if this is not the end. -/
def advance (tokens : List Token) : Course (Option Token) := fun c =>
  match (marks tokens)[c.position]? with
  | none => some (.error .outside, c)
  | some none => some (.ok none, c)
  | some (some token) => some (.ok (some token), c.moveTo (c.position + 1))

/-- Takes a closing parenthesis. -/
def expectClosing (tokens : List Token) : Course (Option Token) := do
  match ← peek tokens with
  | some ⟨.closing, _⟩ => advance tokens
  | mark => halt (.unexpected .closing mark)

/-- Runs a course, and another one from the same place where the first one is refused by the
grammar. -/
def orReread {α : Type} (first second : Course α) : Course α := fun c =>
  match first c with
  | some (.error (.stopped (.unexpected _ _)), c') => second (c'.moveTo c.position)
  | outcome => outcome

/-- The routines that read a tree of a sort. -/
inductive Routine : ExprSort → Type
  | expression (s : ExprSort) : Routine s
  /-- Operands with operators between them that have the least rank or a higher one. -/
  | climb (s : ExprSort) (least : Nat) : Routine s
  /-- The operators and operands that are left of it, with the tree read so far. -/
  | rounds {s : ExprSort} (least : Nat) (left : s.Tree) : Routine s
  | unary (s : ExprSort) : Routine s
  | primary (s : ExprSort) : Routine s
  /-- What follows an opening parenthesis, up to and with the closing one. -/
  | closed (s : ExprSort) : Routine s
  | relation : Routine .bool

/-- A way to run the routines. -/
abbrev Runner := {s : ExprSort} → Routine s → Course s.Tree

/-- Reads an expression in parentheses. -/
def group (tokens : List Token) (self : Runner) (s : ExprSort) : Course s.Tree := do
  let _ ← advance tokens
  self (.closed s)

/-- What a routine does, where `self` runs the routines that it calls. -/
def step (tokens : List Token) (self : Runner) : Runner
  | s, .expression _ => self (.climb s 1)
  | s, .climb _ least => do
      let left ← self (.unary s)
      self (.rounds least left)
  | s, .rounds least left => do
      let mark ← peek tokens
      match mark.bind fun token => infixOf s token.lexeme with
      | none => pure left
      | some op =>
          if op.rank < least then
            pure left
          else do
            let _ ← advance tokens
            let right ← self (.climb s op.leastOnRight)
            self (.rounds least (op.build left right))
  | s, .unary _ => do
      let mark ← peek tokens
      match mark.bind fun token => s.prefixApply token.lexeme with
      | none => self (.primary s)
      | some f => do
          let _ ← advance tokens
          let operand ← self (.primary s)
          pure (f operand)
  | s, .closed _ => do
      let inner ← self (.expression s)
      let _ ← expectClosing tokens
      pure inner
  | _, .primary .int => do
      match ← peek tokens with
      | some ⟨.opening, _⟩ => group tokens self .int
      | some ⟨.number digits, _⟩ => do
          let _ ← advance tokens
          if digits.length ≤ maxDigits then
            pure (.literal (literalValue digits))
          else
            halt (.overlong ⟨digits.length⟩)
      | some ⟨.keyword (.quantity q), _⟩ => do
          let _ ← advance tokens
          pure (.quantity q)
      | some ⟨.keyword (.weekday w _), _⟩ => do
          let _ ← advance tokens
          pure (.literal w.number)
      | mark => halt (.unexpected .integer mark)
  | _, .primary .bool => do
      match ← peek tokens with
      | some ⟨.opening, _⟩ => orReread (group tokens self .bool) (self .relation)
      | some ⟨.keyword (.truth value), _⟩ => do
          let _ ← advance tokens
          pure (.literal value)
      | some ⟨.keyword (.statement q), _⟩ => do
          let _ ← advance tokens
          pure (.statement q)
      | _ => self .relation
  | _, .relation => do
      let left ← self (.expression .int)
      let mark ← peek tokens
      match mark.bind fun token => relationJoin token.lexeme with
      | none => halt (.unexpected .comparison mark)
      | some f => do
          let _ ← advance tokens
          let right ← self (.expression .int)
          pure (f left right)

/-- Runs a routine with calls up to the given depth. -/
def runWithin (tokens : List Token) : Nat → Runner
  | 0, _, _ => fun _ => none
  | depth + 1, _, r => step tokens (runWithin tokens depth) r

section Courses

variable {α β : Type} {m m' : Course α} {f : α → Course β} {c c' : Cursor} {x : α}
  {abort : Abort} {result : Except Abort α} {tokens : List Token}

theorem bind_of_error (h : m c = some (.error abort, c')) :
    (m >>= f) c = some (.error abort, c') := by
  simp only [bind, ExceptT.bind, ExceptT.mk, StateT.bind, h, Option.bind_some]
  rfl

theorem bind_of_ok (h : m c = some (.ok x, c')) : (m >>= f) c = f x c' := by
  simp only [bind, ExceptT.bind, ExceptT.mk, StateT.bind, h, Option.bind_some]
  rfl

/-- A course that goes on with another one ends in itself or in the other one. -/
theorem bind_eq_some {answer : Except Abort β} (h : (m >>= f) c = some (answer, c')) :
    (∃ abort, m c = some (.error abort, c') ∧ answer = .error abort) ∨
      ∃ x middle, m c = some (.ok x, middle) ∧ f x middle = some (answer, c') := by
  cases hrun : m c with
  | none =>
      simp only [bind, ExceptT.bind, ExceptT.mk, StateT.bind, hrun, Option.bind_none] at h
      cases h
  | some entry =>
      obtain ⟨result, middle⟩ := entry
      cases result with
      | error abort =>
          rw [bind_of_error hrun] at h
          cases h
          exact .inl ⟨abort, rfl, rfl⟩
      | ok x =>
          rw [bind_of_ok hrun] at h
          exact .inr ⟨x, middle, rfl, h⟩

/-- What is refused is run again from the place where it began. -/
theorem orReread_of_refused {wanted : Expectation} {next : Option Token}
    (h : m c = some (.error (.stopped (.unexpected wanted next)), c')) :
    orReread m m' c = m' (c'.moveTo c.position) := by
  rw [orReread, h]

theorem orReread_of_settled (h : m c = some (result, c'))
    (hresult : ∀ wanted next, result ≠ .error (.stopped (.unexpected wanted next))) :
    orReread m m' c = some (result, c') := by
  rw [orReread, h]
  split
  · next wanted next _ hrefused =>
      exact absurd (Prod.mk.inj (Option.some.inj hrefused)).1 (hresult wanted next)
  · rfl

/-- The end mark is the first place where there is no token. -/
theorem marks_getElem? (h : c.position ≤ tokens.length) :
    (marks tokens)[c.position]? = some tokens[c.position]? := by
  rcases Nat.lt_or_eq_of_le h with hlt | heq
  · have hmap : c.position < (tokens.map some).length := by rwa [List.length_map]
    rw [marks, List.getElem?_append_left hmap, List.getElem?_map,
      List.getElem?_eq_getElem hlt]
    rfl
  · rw [marks, heq, List.getElem?_eq_none (Nat.le_refl _)]
    simp

theorem peek_bind {f : Option Token → Course β} (h : c.position ≤ tokens.length) :
    (peek tokens >>= f) c = f tokens[c.position]? c := by
  refine bind_of_ok ?_
  rw [peek, marks_getElem? h]

theorem advance_bind {f : Option Token → Course β} {token : Token}
    (h : tokens[c.position]? = some token) :
    (advance tokens >>= f) c = f (some token) (c.moveTo (c.position + 1)) := by
  have hlt : c.position < tokens.length := (List.getElem?_eq_some_iff.mp h).1
  refine bind_of_ok ?_
  rw [advance, marks_getElem? (Nat.le_of_lt hlt), h]

end Courses

section Depth

variable {α β : Type} {m m' n n' : Course α} {f f' : α → Course β} {tokens : List Token}
  {self self' : Runner} {s : ExprSort}

/-- A course comes to the same end as another one, wherever the other one comes to an end. -/
def Extends (m m' : Course α) : Prop :=
  ∀ c outcome, m c = some outcome → m' c = some outcome

theorem Extends.refl (m : Course α) : Extends m m := fun _ _ h => h

theorem Extends.trans (h : Extends m m') (h' : Extends m' n) : Extends m n :=
  fun c outcome hrun => h' c outcome (h c outcome hrun)

theorem Extends.bind (hm : Extends m m') (hf : ∀ x, Extends (f x) (f' x)) :
    Extends (m >>= f) (m' >>= f') := by
  rintro c ⟨answer, c'⟩ h
  rcases bind_eq_some h with ⟨abort, hrun, rfl⟩ | ⟨x, middle, hrun, hrest⟩
  · exact bind_of_error (hm c _ hrun)
  · exact (bind_of_ok (hm c _ hrun)).trans (hf x middle _ hrest)

/-- What comes after a look at a token or after it is taken. -/
theorem Extends.after (n : Course α) (hf : ∀ x, Extends (f x) (f' x)) :
    Extends (n >>= f) (n >>= f') :=
  (Extends.refl n).bind hf

theorem Extends.orReread (hm : Extends m m') (hn : Extends n n') :
    Extends (orReread m n) (orReread m' n') := by
  intro c outcome h
  cases hrun : m c with
  | none =>
      rw [Parser.orReread, hrun] at h
      cases h
  | some entry =>
      obtain ⟨result, c'⟩ := entry
      by_cases hrefused : ∃ wanted next, result = .error (.stopped (.unexpected wanted next))
      · obtain ⟨wanted, next, rfl⟩ := hrefused
        rw [orReread_of_refused hrun] at h
        rw [orReread_of_refused (hm c _ hrun)]
        exact hn _ outcome h
      · have hresult : ∀ wanted next, result ≠ .error (.stopped (.unexpected wanted next)) :=
          fun wanted next heq => hrefused ⟨wanted, next, heq⟩
        rw [orReread_of_settled hrun hresult] at h
        rw [orReread_of_settled (hm c _ hrun) hresult]
        exact h

/-- A routine does the same where the ones that it calls say more. -/
theorem step_extends (hself : ∀ {s} (r : Routine s), Extends (self r) (self' r))
    (r : Routine s) : Extends (step tokens self r) (step tokens self' r) := by
  have hgroup : ∀ s, Extends (group tokens self s) (group tokens self' s) :=
    fun s => .after _ fun _ => hself (.closed s)
  cases r with
  | expression => exact hself (.climb s 1)
  | climb _ least => exact (hself (.unary s)).bind fun left => hself (.rounds least left)
  | rounds least left =>
      refine .after _ fun mark => ?_
      split
      · exact .refl _
      · next op _ =>
          split
          · exact .refl _
          · exact .after _ fun _ => (hself (.climb s op.leastOnRight)).bind fun right =>
              hself (.rounds least (op.build left right))
  | unary =>
      refine .after _ fun mark => ?_
      split
      · exact hself (.primary s)
      · exact .after _ fun _ => (hself (.primary s)).bind fun operand => .refl _
  | closed => exact (hself (.expression s)).bind fun inner => .refl _
  | primary =>
      cases s with
      | int =>
          refine .after _ fun mark => ?_
          split
          · exact hgroup .int
          all_goals exact .refl _
      | bool =>
          refine .after _ fun mark => ?_
          split
          · exact (hgroup .bool).orReread (hself .relation)
          · exact .refl _
          · exact .refl _
          · exact hself .relation
  | relation =>
      refine (hself (.expression .int)).bind fun left => .after _ fun mark => ?_
      split
      · exact .refl _
      · exact .after _ fun _ => (hself (.expression .int)).bind fun right => .refl _

theorem runWithin_extends_succ (tokens : List Token) (depth : Nat) (r : Routine s) :
    Extends (runWithin tokens depth r) (runWithin tokens (depth + 1) r) := by
  induction depth generalizing s with
  | zero =>
      intro _ _ h
      cases h
  | succ depth ih => exact step_extends ih r

/-- Where the calls are not too deep it does not matter how deep they may be. -/
theorem runWithin_extends (tokens : List Token) {depth depth' : Nat} (h : depth ≤ depth')
    (r : Routine s) : Extends (runWithin tokens depth r) (runWithin tokens depth' r) := by
  induction h with
  | refl => exact .refl _
  | step _ ih => exact ih.trans (runWithin_extends_succ tokens _ r)

end Depth

end Parser

end DateRules
