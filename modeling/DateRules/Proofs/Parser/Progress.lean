import DateRules.Proofs.Parser.Cursor
import Mathlib.Logic.Relation

/-!
# The cursor gets on

`Gains size p gain m` says of a course that begins at the place `p` that it comes to an end, that
the cursor has stayed between `p` and the end mark on the way, and that it has passed `gain`
tokens if a tree was read. There is one lemma for each way to build a course, and one for each
routine.

The number of tokens ahead does not get smaller with every call of a routine: a routine calls
others from the place where it began, and the cursor goes back where a group is refused. So the
routines have heights, and those that a routine calls without moving are lower. A token counts
for more than any height, so that from a later place on every routine may be called
(`Routine.callDepth`, `Served`). Calls as deep as this are enough (`gains_runWithin`), and with
them a run satisfies the equations of the routines (`run_eq_step`).
-/

namespace DateRules

namespace Parser

section Places

variable {size p q : Nat} {trail : List Nat} {c c' : Cursor}

/-- The cursor stands, and has been since the given trail, between a place and the end mark. -/
structure Stays (size p : Nat) (trail : List Nat) (c : Cursor) : Prop where
  le_position : p ≤ c.position
  position_le : c.position ≤ size
  visited : ∃ visited, c.trail = visited ++ trail ∧ ∀ q ∈ visited, p ≤ q ∧ q ≤ size

theorem stays_start (hp : p ≤ size) (trail : List Nat) : Stays size p trail ⟨p, trail⟩ :=
  ⟨Nat.le_refl p, hp, [], rfl, fun _ h => absurd h List.not_mem_nil⟩

theorem Stays.moveTo (h : Stays size p trail c) (hlow : p ≤ q) (hhigh : q ≤ size) :
    Stays size p trail (c.moveTo q) := by
  obtain ⟨visited, htrail, hvisited⟩ := h.visited
  refine ⟨hlow, hhigh, q :: visited, congrArg (q :: ·) htrail, ?_⟩
  intro x hx
  rcases List.mem_cons.mp hx with rfl | hx
  · exact ⟨hlow, hhigh⟩
  · exact hvisited x hx

theorem Stays.trans (h : Stays size p trail c) (h' : Stays size c.position c.trail c') :
    Stays size p trail c' := by
  obtain ⟨visited, htrail, hvisited⟩ := h.visited
  obtain ⟨visited', htrail', hvisited'⟩ := h'.visited
  refine ⟨Nat.le_trans h.le_position h'.le_position, h'.position_le, visited' ++ visited, ?_, ?_⟩
  · rw [htrail', htrail, List.append_assoc]
  · intro x hx
    rcases List.mem_append.mp hx with hx | hx
    · exact ⟨Nat.le_trans h.le_position (hvisited' x hx).1, (hvisited' x hx).2⟩
    · exact hvisited x hx

end Places

section Gains

variable {α β : Type} {tokens : List Token} {size p g k : Nat} {trail : List Nat}
  {m : Course α} {f : α → Course β}

/-- How a run from a place ends: the cursor has not left the list, and has passed `g` tokens
if a tree was read. -/
structure Ended (size p : Nat) (trail : List Nat) (g : Nat) (result : Except Abort α)
    (c : Cursor) : Prop where
  stays : Stays size p trail c
  ne_outside : result ≠ .error .outside
  gains : ∀ t, result = .ok t → p + g ≤ c.position

/-- From a place on a course comes to an end. -/
def Gains (size p g : Nat) (m : Course α) : Prop :=
  ∀ trail, ∃ result c, m ⟨p, trail⟩ = some (result, c) ∧ Ended size p trail g result c

theorem Gains.mono (h : Gains size p k m) (hle : g ≤ k) : Gains size p g m := by
  intro trail
  obtain ⟨result, c, hrun, hend⟩ := h trail
  exact ⟨result, c, hrun, hend.stays, hend.ne_outside,
    fun t ht => Nat.le_trans (Nat.add_le_add_left hle p) (hend.gains t ht)⟩

theorem gains_pure (hp : p ≤ size) (x : α) : Gains size p 0 (pure x) := by
  intro trail
  exact ⟨.ok x, ⟨p, trail⟩, rfl, stays_start hp trail, by simp, fun _ _ => Nat.le_refl p⟩

theorem gains_halt (hp : p ≤ size) (stop : Stop) : Gains size p g (halt stop : Course α) := by
  intro trail
  exact ⟨.error (.stopped stop), ⟨p, trail⟩, rfl, stays_start hp trail, by simp, by simp⟩

/-- A course that ends goes on with one that does. -/
theorem Gains.bind (hm : Gains size p g m)
    (hf : ∀ x q, p + g ≤ q → q ≤ size → Gains size q k (f x)) :
    Gains size p (g + k) (m >>= f) := by
  intro trail
  obtain ⟨result, c, hrun, hend⟩ := hm trail
  cases result with
  | error abort =>
      refine ⟨.error abort, c, bind_of_error hrun, hend.stays, ?_, by simp⟩
      exact fun h => hend.ne_outside (by rw [Except.error.inj h])
  | ok x =>
      have hgain := hend.gains x rfl
      obtain ⟨result', c', hrun', hend'⟩ := hf x c.position hgain hend.stays.position_le c.trail
      refine ⟨result', c', (bind_of_ok hrun).trans hrun', hend.stays.trans hend'.stays,
        hend'.ne_outside, ?_⟩
      intro t ht
      have hmore := hend'.gains t ht
      omega

theorem lt_of_getElem? {token : Token} (h : tokens[p]? = some token) : p < tokens.length :=
  (List.getElem?_eq_some_iff.mp h).1

theorem gains_peek_bind {f : Option Token → Course β} (hp : p ≤ tokens.length)
    (h : Gains tokens.length p g (f tokens[p]?)) :
    Gains tokens.length p g (peek tokens >>= f) := by
  intro trail
  rw [peek_bind (c := ⟨p, trail⟩) hp]
  exact h trail

theorem gains_advance_bind {f : Option Token → Course β} {token : Token}
    (hp : tokens[p]? = some token) (h : Gains tokens.length (p + 1) g (f (some token))) :
    Gains tokens.length p (g + 1) (advance tokens >>= f) := by
  have hlt := lt_of_getElem? hp
  intro trail
  rw [advance_bind (c := ⟨p, trail⟩) hp]
  obtain ⟨result, c, hrun, hend⟩ := h ((p + 1) :: trail)
  have hstep := (stays_start (Nat.le_of_lt hlt) trail).moveTo (Nat.le_succ p) hlt
  refine ⟨result, c, hrun, hstep.trans hend.stays, hend.ne_outside, ?_⟩
  intro t ht
  have hgain := hend.gains t ht
  omega

theorem gains_advance {token : Token} (hp : tokens[p]? = some token) :
    Gains tokens.length p 1 (advance tokens) := by
  have hrest : Gains tokens.length (p + 1) 0 (pure (some token)) :=
    gains_pure (lt_of_getElem? hp) _
  have hadvance := gains_advance_bind (f := pure) hp hrest
  rwa [bind_pure] at hadvance

theorem gains_expectClosing (hp : p ≤ tokens.length) :
    Gains tokens.length p 1 (expectClosing tokens) := by
  refine gains_peek_bind hp ?_
  split
  · next htoken => exact gains_advance htoken
  · exact gains_halt hp _

/-- What is run again gains as much as it does the first time. -/
theorem Gains.orReread {m' : Course α} (hp : p ≤ size) (hm : Gains size p g m)
    (hm' : Gains size p g m') : Gains size p g (orReread m m') := by
  intro trail
  obtain ⟨result, c, hrun, hend⟩ := hm trail
  by_cases hrefused : ∃ wanted next, result = .error (.stopped (.unexpected wanted next))
  · obtain ⟨wanted, next, rfl⟩ := hrefused
    obtain ⟨result', c', hrun', hend'⟩ := hm' (p :: c.trail)
    have hback := hend.stays.moveTo (Nat.le_refl p) hp
    exact ⟨result', c', (orReread_of_refused hrun).trans hrun', hback.trans hend'.stays,
      hend'.ne_outside, hend'.gains⟩
  · refine ⟨result, c, orReread_of_settled hrun ?_, hend⟩
    exact fun wanted next h => hrefused ⟨wanted, next, h⟩

end Gains

section Routines

variable {tokens : List Token} {self : Runner} {p q depth : Nat} {s s' : ExprSort}

/-- The number of tokens that a routine passes at least, if it reads a tree. -/
def Routine.gain {s : ExprSort} : Routine s → Nat
  | .rounds _ _ => 0
  | _ => 1

/-- A comparison is read from integer expressions, and the boolean operands from comparisons. -/
def Routine.base : ExprSort → Nat
  | .int => 0
  | .bool => 5

/-- The routines that another one calls from the place where it begins are lower. -/
def Routine.height : {s : ExprSort} → Routine s → Nat
  | _, .rounds _ _ => 1
  | s, .primary _ => base s + 1
  | s, .unary _ => base s + 2
  | s, .climb _ _ => base s + 3
  | s, .expression _ => base s + 4
  | s, .closed _ => base s + 5
  | _, .relation => 5

theorem Routine.height_pos (r : Routine s) : 0 < r.height := by
  cases r <;> exact Nat.succ_pos _

theorem Routine.height_le (r : Routine s) : r.height ≤ 10 := by
  cases s <;> cases r <;> simp [height, base]

/-- The depth of the calls that a routine needs from a place on. -/
def Routine.callDepth (tokens : List Token) (p : Nat) (r : Routine s) : Nat :=
  10 * (tokens.length - p) + r.height

/-- All routines get on that do not need calls as deep as the given one needs from a place on. -/
def Served (tokens : List Token) (self : Runner) (p : Nat) (r : Routine s) : Prop :=
  ∀ {s'} (r' : Routine s') q, q ≤ tokens.length →
    r'.callDepth tokens q < r.callDepth tokens p → Gains tokens.length q r'.gain (self r')

variable {r : Routine s}

/-- A lower routine can be called from the place where a routine begins. -/
theorem Served.here (h : Served tokens self p r) (hp : p ≤ tokens.length) (r' : Routine s')
    (hlower : r'.height < r.height) : Gains tokens.length p r'.gain (self r') :=
  h r' p hp (Nat.add_lt_add_left hlower _)

/-- Every routine can be called from a later place. -/
theorem Served.later (h : Served tokens self p r) (r' : Routine s') (hlater : p < q)
    (hq : q ≤ tokens.length) : Gains tokens.length q r'.gain (self r') := by
  refine h r' q hq ?_
  have hlow := r'.height_le
  have hpos := r.height_pos
  unfold Routine.callDepth
  omega

/-- Behind the token under the cursor every routine can be called. -/
theorem Served.advance_bind {β : Type} {token : Token} {f : s'.Tree → Course β}
    (h : Served tokens self p r) (hp : tokens[p]? = some token) (r' : Routine s')
    (hf : ∀ t q, p < q → q ≤ tokens.length → Gains tokens.length q 0 (f t)) :
    Gains tokens.length p 1 (do
      let _ ← advance tokens
      let t ← self r'
      f t) := by
  refine gains_advance_bind hp ?_
  have hcall := h.later r' (Nat.lt_succ_self p) (lt_of_getElem? hp)
  exact (hcall.mono (Nat.zero_le _)).bind (k := 0) fun t q hq hsize => hf t q hq hsize

theorem gains_rounds {least : Nat} {left : s.Tree} (hp : p ≤ tokens.length)
    (h : Served tokens self p (.rounds least left)) :
    Gains tokens.length p 0 (step tokens self (.rounds least left)) := by
  refine gains_peek_bind hp ?_
  split
  · exact gains_pure hp left
  · next op hop =>
      obtain ⟨token, htoken, -⟩ := Option.bind_eq_some_iff.mp hop
      split
      · exact gains_pure hp left
      · have hround := h.advance_bind htoken (.climb s op.leastOnRight) fun right q hq hsize =>
          h.later (.rounds least (op.build left right)) hq hsize
        exact hround.mono (Nat.zero_le 1)

theorem gains_unary (hp : p ≤ tokens.length) (h : Served tokens self p (.unary s)) :
    Gains tokens.length p 1 (step tokens self (.unary s)) := by
  refine gains_peek_bind hp ?_
  split
  · exact h.here hp (.primary s) (Nat.lt_succ_self _)
  · next f hf =>
      obtain ⟨token, htoken, -⟩ := Option.bind_eq_some_iff.mp hf
      exact h.advance_bind htoken (.primary s) fun operand q _ hsize =>
        gains_pure hsize (f operand)

theorem gains_closed (hp : p ≤ tokens.length) (h : Served tokens self p (.closed s)) :
    Gains tokens.length p 1 (step tokens self (.closed s)) := by
  have hinside : Gains tokens.length p 1 (self (.expression s)) :=
    h.here hp (.expression s) (Nat.lt_succ_self _)
  refine (hinside.bind (k := 1 + 0) ?_).mono (Nat.le_succ 1)
  intro inner q _ hsize
  exact (gains_expectClosing hsize).bind fun _ r _ hsize' => gains_pure hsize' inner

/-- A group is read behind its parenthesis. -/
theorem gains_group {token : Token} (htoken : tokens[p]? = some token)
    (h : Served tokens self p r) : Gains tokens.length p 1 (group tokens self s') := by
  have hclosed := h.later (.closed s') (Nat.lt_succ_self p) (lt_of_getElem? htoken)
  exact (gains_advance_bind htoken hclosed).mono (Nat.le_succ 1)

theorem gains_intPrimary (hp : p ≤ tokens.length)
    (h : Served tokens self p (.primary .int)) :
    Gains tokens.length p 1 (step tokens self (.primary .int)) := by
  refine gains_peek_bind hp ?_
  split
  · next htoken => exact gains_group htoken h
  · next htoken =>
      refine gains_advance_bind htoken ?_
      split
      · exact gains_pure (lt_of_getElem? htoken) _
      · exact gains_halt (lt_of_getElem? htoken) _
  · next htoken => exact gains_advance_bind htoken (gains_pure (lt_of_getElem? htoken) _)
  · next htoken => exact gains_advance_bind htoken (gains_pure (lt_of_getElem? htoken) _)
  · exact gains_halt hp _

theorem gains_boolPrimary (hp : p ≤ tokens.length)
    (h : Served tokens self p (.primary .bool)) :
    Gains tokens.length p 1 (step tokens self (.primary .bool)) := by
  have hrelation : Gains tokens.length p 1 (self .relation) :=
    h.here hp .relation (Nat.lt_succ_self 5)
  refine gains_peek_bind hp ?_
  split
  · next htoken => exact (gains_group htoken h).orReread hp hrelation
  · next htoken => exact gains_advance_bind htoken (gains_pure (lt_of_getElem? htoken) _)
  · next htoken => exact gains_advance_bind htoken (gains_pure (lt_of_getElem? htoken) _)
  · exact hrelation

theorem gains_relation (hp : p ≤ tokens.length) (h : Served tokens self p .relation) :
    Gains tokens.length p 1 (step tokens self .relation) := by
  have hside : Gains tokens.length p 1 (self (.expression .int)) :=
    h.here hp (.expression .int) (Nat.lt_succ_self 4)
  refine hside.bind (k := 0) ?_
  intro left q hq hsize
  refine gains_peek_bind hsize ?_
  split
  · exact gains_halt hsize _
  · next f hf =>
      obtain ⟨token, htoken, -⟩ := Option.bind_eq_some_iff.mp hf
      have hlt := lt_of_getElem? htoken
      refine (gains_advance_bind (g := 0) htoken ?_).mono (Nat.zero_le 1)
      have hright := h.later (.expression .int) (Nat.lt_succ_of_lt hq) hlt
      exact (hright.mono (Nat.zero_le 1)).bind fun right _ _ hsize' =>
        gains_pure hsize' (f left right)

/-- A routine gets on if all those get on that do not need calls as deep. -/
theorem gains_step (hp : p ≤ tokens.length) (r : Routine s) (h : Served tokens self p r) :
    Gains tokens.length p r.gain (step tokens self r) := by
  cases r with
  | expression => exact h.here hp (.climb s 1) (Nat.lt_succ_self _)
  | climb _ least =>
      have hunary : Gains tokens.length p 1 (self (.unary s)) :=
        h.here hp (.unary s) (Nat.lt_succ_self _)
      exact hunary.bind fun left q hq hsize => h.later (.rounds least left) hq hsize
  | rounds least left => exact gains_rounds hp h
  | unary => exact gains_unary hp h
  | primary =>
      cases s with
      | int => exact gains_intPrimary hp h
      | bool => exact gains_boolPrimary hp h
  | closed => exact gains_closed hp h
  | relation => exact gains_relation hp h

/-- From every place in a list every routine comes to an end, if the calls may be deep enough.
The induction is on the depth of the calls. -/
theorem gains_runWithin (hp : p ≤ tokens.length) (r : Routine s)
    (hdepth : r.callDepth tokens p ≤ depth) :
    Gains tokens.length p r.gain (runWithin tokens depth r) := by
  induction depth generalizing p s with
  | zero =>
      have hpos := r.height_pos
      unfold Routine.callDepth at hdepth
      omega
  | succ depth ih =>
      refine gains_step hp r fun r' q hq hless => ?_
      exact ih hq r' (Nat.le_of_lt_succ (Nat.lt_of_lt_of_le hless hdepth))

theorem Routine.callDepth_le (tokens : List Token) (p : Nat) (r : Routine s) :
    r.callDepth tokens p ≤ 10 * (tokens.length + 1) := by
  have hlow := r.height_le
  unfold Routine.callDepth
  omega

/-- Runs a routine with calls that are deep enough for every place in the list. -/
@[irreducible]
def run (tokens : List Token) : Runner := runWithin tokens (10 * (tokens.length + 1))

theorem gains_run (hp : p ≤ tokens.length) (r : Routine s) :
    Gains tokens.length p r.gain (run tokens r) := by
  rw [run]
  exact gains_runWithin hp r (r.callDepth_le tokens p)

/-- The end of a run does not change with calls that may be deeper. -/
theorem runWithin_eq_run {c : Cursor} (hc : c.position ≤ tokens.length) (r : Routine s)
    (hdepth : r.callDepth tokens c.position ≤ depth) :
    runWithin tokens depth r c = run tokens r c := by
  obtain ⟨result, c', hrun, -⟩ := gains_runWithin hc r (Nat.le_refl _) c.trail
  rw [runWithin_extends tokens hdepth r c _ hrun, run,
    runWithin_extends tokens (r.callDepth_le tokens c.position) r c _ hrun]

/-- In a list the routines do what they do with each other. -/
theorem run_eq_step {c : Cursor} (hc : c.position ≤ tokens.length) (r : Routine s) :
    run tokens r c = step tokens (run tokens) r c := by
  have hdepth := Nat.le_succ_of_le (r.callDepth_le tokens c.position)
  rw [← runWithin_eq_run hc r hdepth]
  unfold run
  rfl

end Routines

section Rounds

variable {tokens : List Token} {s : ExprSort} {least : Nat}

/-- One round of a loop: the operator under the cursor and the operand after it are read. -/
inductive Round (tokens : List Token) (least : Nat) : s.Tree × Cursor → s.Tree × Cursor → Prop
  | mk {token : Token} {op : Infix s.Tree} {left right : s.Tree} {c c' : Cursor}
      (under : tokens[c.position]? = some token) (operator : infixOf s token.lexeme = some op)
      (high : least ≤ op.rank)
      (operand : run tokens (.climb s op.leastOnRight) (c.moveTo (c.position + 1)) =
        some (.ok right, c')) :
      Round tokens least (left, c) (op.build left right, c')

/-- A round passes the operator and at least one token of the operand. -/
theorem Round.gains {x y : s.Tree × Cursor} (h : Round tokens least x y) :
    x.2.position + 2 ≤ y.2.position ∧ y.2.position ≤ tokens.length := by
  obtain @⟨token, op, left, right, c, c', under, -, -, operand⟩ := h
  have hlt := lt_of_getElem? under
  obtain ⟨result, c'', hrun, hend⟩ :=
    gains_run hlt (.climb s op.leastOnRight) ((c.position + 1) :: c.trail)
  obtain ⟨rfl, rfl⟩ := Prod.mk.inj (Option.some.inj (operand.symm.trans hrun))
  exact ⟨hend.gains right rfl, hend.stays.position_le⟩

/-- A loop goes through rounds until it ends, with the tree that it has come to or in the operand
of a further round. The induction is on the number of tokens ahead. -/
theorem rounds_of_run {left : s.Tree} {result : Except Abort s.Tree} {c c' : Cursor}
    (hc : c.position ≤ tokens.length)
    (h : run tokens (.rounds least left) c = some (result, c')) :
    ∃ t last, Relation.ReflTransGen (Round tokens least) (left, c) (t, last) ∧
      (result = .ok t ∧ c' = last ∨
        ∃ abort, result = .error abort ∧ ∀ y, ¬ Round tokens least (t, last) y) := by
  induction hahead : tokens.length - c.position using Nat.strongRecOn generalizing left c with
  | ind ahead ih =>
      rw [run_eq_step hc, step, peek_bind hc] at h
      cases hop : tokens[c.position]?.bind fun token => infixOf s token.lexeme with
      | none =>
          rw [hop] at h
          cases h
          exact ⟨left, _, .refl, .inl ⟨rfl, rfl⟩⟩
      | some op =>
          obtain ⟨token, htoken, hoperator⟩ := Option.bind_eq_some_iff.mp hop
          simp only [hop] at h
          by_cases hrank : op.rank < least
          · rw [if_pos hrank] at h
            cases h
            exact ⟨left, _, .refl, .inl ⟨rfl, rfl⟩⟩
          · rw [if_neg hrank, advance_bind htoken] at h
            rcases bind_eq_some h with ⟨abort, hstopped, rfl⟩ | ⟨right, middle, hright, hrest⟩
            · refine ⟨left, c, .refl, .inr ⟨abort, rfl, ?_⟩⟩
              rintro _ ⟨under, operator, -, operand⟩
              rw [htoken] at under
              obtain rfl := Option.some.inj under
              rw [hoperator] at operator
              obtain rfl := Option.some.inj operator
              cases operand.symm.trans hstopped
            · have hround : Round tokens least (left, c) (op.build left right, middle) :=
                .mk htoken hoperator (Nat.le_of_not_lt hrank) hright
              have hgain : c.position + 2 ≤ middle.position := hround.gains.1
              have hinside : middle.position ≤ tokens.length := hround.gains.2
              obtain ⟨t, last, hrounds, hend⟩ :=
                ih (tokens.length - middle.position) (by omega) hinside hrest rfl
              exact ⟨t, last, .head hround hrounds, hend⟩

end Rounds

end Parser

end DateRules
