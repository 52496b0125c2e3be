import Mathlib.Data.Fin.Basic
import Mathlib.Data.List.InsertIdx
import DateRules.Proofs.Engine.Lookup

/-!
# What an engine holds on to

An engine keeps the table and the settings of the session over which it was built, until
it is built anew. The steps of a session are its commands and what can be done with any of
its rules and settings, whether the engine finds them or not: assigning to them, copying
them, and listing or attaching them once more. `Keeps s t` says that the engine of `t` finds
and uses what that of `s` does; every step but a new build leads to such a session
(`keeps_step`).

The rules and settings themselves go on to change. `Follows` says how a step changes those
in each cell, only by an assignment that is meant for it, and what is listed and attached
after it.
-/

namespace DateRules

/-- What can happen to a session. -/
inductive Step where
  | command (command : Command)
  /-- An assignment to the rule in a cell, be it listed and found or not. -/
  | changeRule (cell : Nat) (change : Rule → Rule)
  /-- An assignment to the settings in a cell, be they attached or held or neither. -/
  | changeSettings (cell : Nat) (change : Settings → Settings)
  /-- Listing a changed copy of the rule in a cell, be it listed and found or not. -/
  | copyRule (cell : Nat) (change : RuleChange)
  /-- Listing the rule in a cell at the end, be it listed already or not. -/
  | listRule (cell : Nat)
  /-- Attaching the settings in a cell, which may have been attached before. -/
  | attach (cell : Nat)

namespace Session

/-- Changes the settings of a cell. -/
def updateSettingsAt (s : Session) (k : Fin s.settingsCount) (f : Settings → Settings) :
    Session :=
  { s with settings := putCell s.settings k (f (s.settings.get k)) }

/-- Lists the rule of a cell at the end of the rule set. -/
def listCell (s : Session) (i : Fin s.ruleCount) : Session := { s with listed := s.listed ++ [i] }

/-- Attaches the settings of a cell to the rule set. -/
def attachCell (s : Session) (k : Fin s.settingsCount) : Session := { s with attached := k }

/-- Lists a changed copy of the rule in a cell. -/
def copyCell (s : Session) (i : Fin s.ruleCount) (change : RuleChange) : Session :=
  s.append ((s.rules.get i).change change)

/-- The session after a step. Nothing is done with a cell that does not exist. -/
def step (stack : CallStack) (s : Session) : Step → Session
  | .command command => (s.perform stack command).2
  | .changeRule cell change =>
      if h : cell < s.ruleCount then s.updateRule ⟨cell, h⟩ change else s
  | .changeSettings cell change =>
      if h : cell < s.settingsCount then s.updateSettingsAt ⟨cell, h⟩ change else s
  | .copyRule cell change =>
      if h : cell < s.ruleCount then s.copyCell ⟨cell, h⟩ change else s
  | .listRule cell => if h : cell < s.ruleCount then s.listCell ⟨cell, h⟩ else s
  | .attach cell => if h : cell < s.settingsCount then s.attachCell ⟨cell, h⟩ else s

/-- The session after steps in order. -/
def follow (stack : CallStack) (s : Session) (steps : List Step) : Session :=
  steps.foldl (step stack) s

section Steps

variable {stack : CallStack} {s : Session}

/-- What holds of a session, after its commands and after what is done with its cells holds
after each step. -/
theorem step_rec {P : Session → Prop} (step : Step) (hself : P s)
    (hcommand : ∀ command, step = .command command → P (s.perform stack command).2)
    (hrule : ∀ i change, P (s.updateRule i change))
    (hsettings : ∀ k change, P (s.updateSettingsAt k change))
    (hcopy : ∀ i change, P (s.copyCell i change)) (hlist : ∀ i, P (s.listCell i))
    (hattach : ∀ k, P (s.attachCell k)) : P (s.step stack step) := by
  cases step with
  | command command => exact hcommand command rfl
  | changeRule cell change =>
      rw [Session.step]
      split
      · exact hrule _ change
      · exact hself
  | changeSettings cell change =>
      rw [Session.step]
      split
      · exact hsettings _ change
      · exact hself
  | copyRule cell change =>
      rw [Session.step]
      split
      · exact hcopy _ change
      · exact hself
  | listRule cell =>
      rw [Session.step]
      split
      · exact hlist _
      · exact hself
  | attach cell =>
      rw [Session.step]
      split
      · exact hattach _
      · exact hself

theorem coherent_step (h : CoherentCells {stack} s.rules) (step : Step) :
    CoherentCells {stack} (s.step stack step).rules := by
  have hagree := agreeOn_singleton stack
  refine step_rec (P := fun after => CoherentCells {stack} after.rules) step h ?_ ?_ ?_ ?_ ?_ ?_
  · rintro command -
    exact coherent_perform (Set.mem_singleton stack) h (command.agrees_singleton stack)
  · exact fun i change => coherent_updateRule h i (hagree _)
  · exact fun _ _ => h
  · exact fun i change => coherent_append h ((h i).change fun condition _ => hagree condition)
  · exact fun _ => h
  · exact fun _ => h

theorem coherent_follow (h : CoherentCells {stack} s.rules) (steps : List Step) :
    CoherentCells {stack} (s.follow stack steps).rules := by
  induction steps generalizing s with
  | nil => exact h
  | cons step steps ih => exact ih (coherent_step h step)

end Steps

/-- The engine of a session finds the same cells and uses the same settings as that of an
earlier one. -/
structure Keeps (s t : Session) : Prop where
  rules_le : s.ruleCount ≤ t.ruleCount
  settings_le : s.settingsCount ≤ t.settingsCount
  table_eq : t.table = s.table.map fun entry => (entry.1, entry.2.castLE rules_le)
  held_eq : t.held = s.held.castLE settings_le

section Keeps

variable {callers : Set CallStack} {stack : CallStack} {s t u : Session}

theorem map_castLE_self {n : Nat} (table : List (String × Fin n)) (h : n ≤ n) :
    (table.map fun entry => (entry.1, entry.2.castLE h)) = table := by
  simp

theorem Keeps.refl (s : Session) : Keeps s s where
  rules_le := Nat.le_refl _
  settings_le := Nat.le_refl _
  table_eq := (map_castLE_self s.table _).symm
  held_eq := rfl

theorem Keeps.trans (hst : Keeps s t) (htu : Keeps t u) : Keeps s u where
  rules_le := Nat.le_trans hst.rules_le htu.rules_le
  settings_le := Nat.le_trans hst.settings_le htu.settings_le
  table_eq := by
    rw [htu.table_eq, hst.table_eq, List.map_map]
    rfl
  held_eq := by
    rw [htu.held_eq, hst.held_eq]
    rfl

theorem Keeps.find? (h : Keeps s t) (id : String) :
    t.find? id = (s.find? id).map (Fin.castLE h.rules_le) := by
  rw [Session.find?, h.table_eq]
  exact lookUp_map (Fin.castLE h.rules_le) s.table id

theorem keeps_append (s : Session) (cell : RuleCell) : Keeps s (s.append cell) where
  rules_le := Nat.le_succ _
  settings_le := Nat.le_refl _
  table_eq := rfl
  held_eq := rfl

theorem keeps_attachSettings (s : Session) (settings : Settings) :
    Keeps s (s.attachSettings settings) where
  rules_le := Nat.le_refl _
  settings_le := Nat.le_succ _
  table_eq := (map_castLE_self s.table _).symm
  held_eq := rfl

/-- Only building the engine anew changes what it finds and which settings it uses. -/
theorem Effect.keeps {command : Command} (h : Effect callers s command t)
    (hbuild : command ≠ .rebuild) : Keeps s t := by
  cases h with
  | unchanged => exact Keeps.refl s
  | asked => exact { Keeps.refl s with }
  | assigned => exact { Keeps.refl s with }
  | tuned => exact { Keeps.refl s with }
  | attached => exact keeps_attachSettings s _
  | appended => exact keeps_append s _
  | erased => exact { Keeps.refl s with }
  | copied => exact keeps_append s _
  | rebuilt => exact absurd rfl hbuild

theorem keeps_step (s : Session) {step : Step} (h : step ≠ .command .rebuild) :
    Keeps s (s.step stack step) := by
  refine step_rec (P := Keeps s) step (Keeps.refl s) ?_ ?_ ?_ ?_ ?_ ?_
  · rintro command rfl
    exact (effect_perform (Set.mem_singleton stack) s command).keeps fun hbuild =>
      h (congrArg Step.command hbuild)
  · intro i change
    exact { Keeps.refl s with }
  · intro k change
    exact { Keeps.refl s with }
  · intro i change
    exact keeps_append s _
  · intro i
    exact { Keeps.refl s with }
  · intro k
    exact { Keeps.refl s with }

theorem keeps_follow (s : Session) {steps : List Step} (h : .command .rebuild ∉ steps) :
    Keeps s (s.follow stack steps) := by
  induction steps generalizing s with
  | nil => exact Keeps.refl s
  | cons step steps ih =>
      rw [List.mem_cons, not_or] at h
      exact (keeps_step s (Ne.symm h.1)).trans (ih (s.step stack step) h.2)

end Keeps

section Effects

variable {callers : Set CallStack} {stack : CallStack} {s t : Session}

/-- The rule of a cell after a step. -/
def ruleAfter (s : Session) (step : Step) (i : Fin s.ruleCount) : Rule :=
  match step with
  | .command command =>
      match command.assignment? with
      | some (id, change) =>
          if s.find? id = some i then change (s.rules.get i).rule else (s.rules.get i).rule
      | none => (s.rules.get i).rule
  | .changeRule cell change =>
      if cell = i.val then change (s.rules.get i).rule else (s.rules.get i).rule
  | _ => (s.rules.get i).rule

/-- The settings of a cell after a step. -/
def settingsAfter (s : Session) (step : Step) (k : Fin s.settingsCount) : Settings :=
  match step with
  | .command command =>
      match command.settingsChange? with
      | some change => if s.attached = k then change (s.settings.get k) else s.settings.get k
      | none => s.settings.get k
  | .changeSettings cell change =>
      if cell = k.val then change (s.settings.get k) else s.settings.get k
  | _ => s.settings.get k

/-- The cells of a session are those of an earlier one after a step, and maybe others. -/
structure Assigns (s : Session) (step : Step) (t : Session) : Prop where
  rules_le : s.ruleCount ≤ t.ruleCount
  settings_le : s.settingsCount ≤ t.settingsCount
  rule_eq : ∀ i, (t.rules.get (i.castLE rules_le)).rule = s.ruleAfter step i
  settings_eq : ∀ k, t.settings.get (k.castLE settings_le) = s.settingsAfter step k

/-- The cells of a session are those of an earlier one, and maybe others. -/
structure Extends (s t : Session) : Prop where
  rules_le : s.ruleCount ≤ t.ruleCount
  settings_le : s.settingsCount ≤ t.settingsCount
  rule_eq : ∀ i, (t.rules.get (i.castLE rules_le)).rule = (s.rules.get i).rule
  settings_eq : ∀ k, t.settings.get (k.castLE settings_le) = s.settings.get k

theorem Extends.assigns {command : Command} (h : Extends s t)
    (hrule : command.assignment? = none) (hsettings : command.settingsChange? = none) :
    Assigns s (.command command) t where
  rules_le := h.rules_le
  settings_le := h.settings_le
  rule_eq := by
    intro i
    simp only [h.rule_eq, ruleAfter, hrule]
  settings_eq := by
    intro k
    simp only [h.settings_eq, settingsAfter, hsettings]

theorem Extends.refl (s : Session) : Extends s s :=
  ⟨Nat.le_refl _, Nat.le_refl _, fun _ => rfl, fun _ => rfl⟩

theorem get_push_castLE {α : Type} {n : Nat} (cells : Vector α n) (cell : α) (i : Fin n) :
    (cells.push cell).get (i.castLE (Nat.le_succ n)) = cells.get i := by
  change (cells.push cell)[i.val] = cells[i.val]
  exact Vector.getElem_push_lt i.isLt

theorem extends_append (s : Session) (cell : RuleCell) : Extends s (s.append cell) :=
  ⟨Nat.le_succ _, Nat.le_refl _,
    fun i => congrArg RuleCell.rule (get_push_castLE s.rules cell i), fun _ => rfl⟩

theorem extends_attachSettings (s : Session) (settings : Settings) :
    Extends s (s.attachSettings settings) :=
  ⟨Nat.le_refl _, Nat.le_succ _, fun _ => rfl, get_push_castLE s.settings settings⟩

theorem get_updateSettingsAt (s : Session) (k j : Fin s.settingsCount) (f : Settings → Settings) :
    (s.updateSettingsAt k f).settings.get j =
      if k = j then f (s.settings.get j) else s.settings.get j := by
  change (putCell s.settings k _).get j = _
  rw [get_putCell]
  split
  · next h => rw [h]
  · rfl

theorem Effect.assigns {command : Command} (h : Effect callers s command t)
    (hs : CoherentCells callers s.rules) : Assigns s (.command command) t := by
  cases h with
  | unchanged hrule hsettings =>
      -- An assignment may be meant for a rule that the engine does not find.
      refine ⟨Nat.le_refl _, Nat.le_refl _, fun i => ?_, fun k => ?_⟩
      · simp only [ruleAfter]
        split
        · next id change hassigned =>
            rw [hrule id change hassigned]
            rfl
        · rfl
      · simp only [settingsAfter, hsettings]
        rfl
  | asked hasks hq =>
      refine Extends.assigns ?_ hasks.assignment?_eq_none hasks.settingsChange?_eq_none
      exact ⟨Nat.le_refl _, Nat.le_refl _, rule_ask hs hq, fun _ => rfl⟩
  | @assigned _ id change i hrule hi =>
      refine ⟨Nat.le_refl _, Nat.le_refl _, fun j => ?_, fun k => ?_⟩
      · simp only [ruleAfter, hrule, hi, Option.some.injEq]
        exact rule_updateRule s i j change
      · simp only [settingsAfter, Command.settingsChange?_eq_none hrule]
        rfl
  | @tuned _ change hsettings =>
      refine ⟨Nat.le_refl _, Nat.le_refl _, fun i => ?_, fun k => ?_⟩
      · simp only [ruleAfter, Command.assignment?_eq_none hsettings]
        rfl
      · simp only [settingsAfter, hsettings]
        exact get_updateSettingsAt s s.attached k change
  | attached => exact (extends_attachSettings s _).assigns rfl rfl
  | appended => exact (extends_append s _).assigns rfl rfl
  | erased => exact Extends.assigns { Extends.refl s with } rfl rfl
  | copied => exact (extends_append s _).assigns rfl rfl
  | rebuilt => exact Extends.assigns { Extends.refl s with } rfl rfl

theorem assigns_step (h : CoherentCells {stack} s.rules) (step : Step) :
    Assigns s step (s.step stack step) := by
  cases step with
  | command command => exact (effect_perform (Set.mem_singleton stack) s command).assigns h
  | changeRule cell change =>
      by_cases hcell : cell < s.ruleCount
      · rw [Session.step, dif_pos hcell]
        refine ⟨Nat.le_refl _, Nat.le_refl _, fun i => ?_, fun _ => rfl⟩
        rw [ruleAfter]
        exact (rule_updateRule s ⟨cell, hcell⟩ i change).trans (by simp only [Fin.ext_iff])
      · rw [Session.step, dif_neg hcell]
        refine ⟨Nat.le_refl _, Nat.le_refl _, fun i => ?_, fun _ => rfl⟩
        have hne : cell ≠ i.val := fun heq => hcell (heq ▸ i.isLt)
        rw [ruleAfter, if_neg hne]
        rfl
  | changeSettings cell change =>
      by_cases hcell : cell < s.settingsCount
      · rw [Session.step, dif_pos hcell]
        refine ⟨Nat.le_refl _, Nat.le_refl _, fun _ => rfl, fun k => ?_⟩
        rw [settingsAfter]
        exact (get_updateSettingsAt s ⟨cell, hcell⟩ k change).trans (by simp only [Fin.ext_iff])
      · rw [Session.step, dif_neg hcell]
        refine ⟨Nat.le_refl _, Nat.le_refl _, fun _ => rfl, fun k => ?_⟩
        have hne : cell ≠ k.val := fun heq => hcell (heq ▸ k.isLt)
        rw [settingsAfter, if_neg hne]
        rfl
  | copyRule cell change =>
      rw [Session.step]
      split
      · next hcell =>
          have hextends := extends_append s ((s.rules.get ⟨cell, hcell⟩).change change)
          exact ⟨hextends.rules_le, hextends.settings_le, hextends.rule_eq, hextends.settings_eq⟩
      · exact ⟨Nat.le_refl _, Nat.le_refl _, fun _ => rfl, fun _ => rfl⟩
  | listRule cell =>
      rw [Session.step]
      split
      · exact ⟨Nat.le_refl _, Nat.le_refl _, fun _ => rfl, fun _ => rfl⟩
      · exact ⟨Nat.le_refl _, Nat.le_refl _, fun _ => rfl, fun _ => rfl⟩
  | attach cell =>
      rw [Session.step]
      split
      · exact ⟨Nat.le_refl _, Nat.le_refl _, fun _ => rfl, fun _ => rfl⟩
      · exact ⟨Nat.le_refl _, Nat.le_refl _, fun _ => rfl, fun _ => rfl⟩

end Effects

section Lists

variable {stack : CallStack} {s t : Session}

/-- The rule that a step adds in a cell of its own. -/
def added? (stack : CallStack) (s : Session) : Step → Option Rule
  | .command (.appendRule data) => (Rule.ofValue stack data).toOption
  | .command (.copyRule id change) => (s.find? id).map fun i => (s.rules.get i).rule.change change
  | .copyRule cell change =>
      if h : cell < s.ruleCount then some ((s.rules.get ⟨cell, h⟩).rule.change change) else none
  | _ => none

/-- The settings that a step adds in a cell of its own. -/
def installed? : Step → Option Settings
  | .command (.replaceSettings data) => (Settings.ofValue data).toOption
  | _ => none

/-- The cells of the listed rules after a step. -/
def listedAfter (stack : CallStack) (s : Session) (step : Step) : List Nat :=
  match step with
  | .command (.removeRule position) =>
      match positionIn s.listed.length position with
      | some k => (s.listed.map Fin.val).eraseIdx k
      | none => s.listed.map Fin.val
  | .listRule cell =>
      if cell < s.ruleCount then s.listed.map Fin.val ++ [cell] else s.listed.map Fin.val
  | other =>
      if (s.added? stack other).isSome then s.listed.map Fin.val ++ [s.ruleCount]
      else s.listed.map Fin.val

/-- The cell of the attached settings after a step. -/
def attachedAfter (s : Session) : Step → Nat
  | .attach cell => if cell < s.settingsCount then cell else s.attached
  | other => if (installed? other).isSome then s.settingsCount else s.attached

/-- The rules that are listed in a session and the settings that are attached are those of an
earlier one after a step. -/
structure Lists (stack : CallStack) (s : Session) (step : Step) (t : Session) : Prop where
  added : ∀ r ∈ s.added? stack step,
    ∃ h : s.ruleCount < t.ruleCount, (t.rules.get ⟨s.ruleCount, h⟩).rule = r
  installed : ∀ settings ∈ installed? step,
    ∃ h : s.settingsCount < t.settingsCount, t.settings.get ⟨s.settingsCount, h⟩ = settings
  listed_eq : t.listed.map Fin.val = s.listedAfter stack step
  attached_eq : t.attached.val = s.attachedAfter step

/-- A step that adds nothing says only what is listed and attached. -/
theorem lists_of_none {step : Step} (hadded : s.added? stack step = none)
    (hinstalled : installed? step = none)
    (hlists : t.listed.map Fin.val = s.listedAfter stack step)
    (hattach : t.attached.val = s.attachedAfter step) : Lists stack s step t where
  added := by
    intro r hr
    rw [hadded] at hr
    cases hr
  installed := by
    intro settings hsettings
    rw [hinstalled] at hsettings
    cases hsettings
  listed_eq := hlists
  attached_eq := hattach

theorem lists_append {step : Step} {cell : RuleCell}
    (hadded : s.added? stack step = some cell.rule) (hinstalled : installed? step = none)
    (hlists : s.listedAfter stack step = s.listed.map Fin.val ++ [s.ruleCount])
    (hattach : s.attachedAfter step = s.attached.val) : Lists stack s step (s.append cell) where
  added := by
    intro r hr
    rw [hadded] at hr
    cases hr
    refine ⟨Nat.lt_succ_self _, ?_⟩
    change ((s.rules.push cell)[s.ruleCount]).rule = cell.rule
    rw [Vector.getElem_push_eq]
  installed := by
    intro settings hsettings
    rw [hinstalled] at hsettings
    cases hsettings
  listed_eq := by
    rw [hlists]
    simp [append, Function.comp_def]
  attached_eq := hattach.symm

theorem lists_attachSettings {step : Step} {settings : Settings}
    (hadded : s.added? stack step = none) (hinstalled : installed? step = some settings)
    (hlists : s.listedAfter stack step = s.listed.map Fin.val)
    (hattach : s.attachedAfter step = s.settingsCount) :
    Lists stack s step (s.attachSettings settings) where
  added := by
    intro r hr
    rw [hadded] at hr
    cases hr
  installed := by
    intro other hother
    rw [hinstalled] at hother
    cases hother
    refine ⟨Nat.lt_succ_self _, ?_⟩
    change (s.settings.push settings)[s.settingsCount] = settings
    rw [Vector.getElem_push_eq]
  listed_eq := hlists.symm
  attached_eq := hattach.symm

theorem Effect.lists_eq {callers : Set CallStack} {command : Command}
    (h : Effect callers s command t) (hkeeps : ¬ command.Rearranges) :
    t.listed.map Fin.val = s.listed.map Fin.val ∧ t.attached.val = s.attached.val := by
  cases h with
  | unchanged => exact ⟨rfl, rfl⟩
  | asked => exact ⟨rfl, rfl⟩
  | assigned => exact ⟨rfl, rfl⟩
  | tuned => exact ⟨rfl, rfl⟩
  | rebuilt => exact ⟨rfl, rfl⟩
  | attached => exact absurd trivial hkeeps
  | appended => exact absurd trivial hkeeps
  | erased => exact absurd trivial hkeeps
  | copied => exact absurd trivial hkeeps

theorem lists_perform (s : Session) (command : Command) :
    Lists stack s (.command command) (s.perform stack command).2 := by
  have heffect := effect_perform (Set.mem_singleton stack) s command
  cases command with
  | replaceSettings data =>
      rw [perform]
      cases hread : Settings.ofValue data with
      | error issues =>
          have hinstalled : installed? (.command (.replaceSettings data)) = none := by
            simp [installed?, hread, Except.toOption]
          exact lists_of_none rfl hinstalled rfl (by simp [withChecked, attachedAfter, hinstalled])
      | ok settings =>
          have hinstalled : installed? (.command (.replaceSettings data)) = some settings := by
            simp [installed?, hread, Except.toOption]
          exact lists_attachSettings rfl hinstalled rfl (by simp [attachedAfter, hinstalled])
  | appendRule data =>
      rw [perform]
      cases hread : Rule.ofValue stack data with
      | error issues =>
          have hadded : s.added? stack (.command (.appendRule data)) = none := by
            simp [added?, hread, Except.toOption]
          exact lists_of_none hadded rfl (by simp [withChecked, listedAfter, hadded]) rfl
      | ok rule =>
          have hadded : s.added? stack (.command (.appendRule data)) = some rule := by
            simp [added?, hread, Except.toOption]
          exact lists_append hadded rfl (by simp [listedAfter, hadded]) rfl
  | removeRule position =>
      rw [perform]
      split
      · next k hk =>
          refine lists_of_none rfl rfl ?_ rfl
          simp only [listedAfter, hk, eraseListed]
          exact (List.eraseIdx_map _ _ _).symm
      · next hk => exact lists_of_none rfl rfl (by simp [listedAfter, hk]) rfl
  | copyRule id change =>
      rw [perform]
      cases hfind : s.find? id with
      | none =>
          have hadded : s.added? stack (.command (.copyRule id change)) = none := by
            simp [added?, hfind]
          rw [withRule_of_find?_eq_none hfind]
          exact lists_of_none hadded rfl (by simp [listedAfter, hadded]) rfl
      | some i =>
          have hadded : s.added? stack (.command (.copyRule id change)) =
              some ((s.rules.get i).rule.change change) := by
            simp [added?, hfind]
          rw [withRule_of_find? hfind]
          exact lists_append hadded rfl (by simp [listedAfter, hadded]) rfl
  | _ =>
      obtain ⟨hlisted, hattached⟩ := heffect.lists_eq not_false
      exact lists_of_none rfl rfl hlisted hattached

theorem lists_step (s : Session) (step : Step) : Lists stack s step (s.step stack step) := by
  cases step with
  | command command => exact lists_perform s command
  | changeRule cell change =>
      rw [Session.step]
      split
      · exact lists_of_none rfl rfl rfl rfl
      · exact lists_of_none rfl rfl rfl rfl
  | changeSettings cell change =>
      rw [Session.step]
      split
      · exact lists_of_none rfl rfl rfl rfl
      · exact lists_of_none rfl rfl rfl rfl
  | copyRule cell change =>
      by_cases hcell : cell < s.ruleCount
      · have hadded : s.added? stack (.copyRule cell change) =
            some ((s.rules.get ⟨cell, hcell⟩).rule.change change) := dif_pos hcell
        rw [Session.step, dif_pos hcell]
        exact lists_append hadded rfl (by simp [listedAfter, hadded]) rfl
      · have hadded : s.added? stack (.copyRule cell change) = none := dif_neg hcell
        rw [Session.step, dif_neg hcell]
        exact lists_of_none hadded rfl (by simp [listedAfter, hadded]) rfl
  | listRule cell =>
      by_cases hcell : cell < s.ruleCount
      · rw [Session.step, dif_pos hcell]
        refine lists_of_none rfl rfl ?_ rfl
        simp [listedAfter, hcell, listCell]
      · rw [Session.step, dif_neg hcell]
        exact lists_of_none rfl rfl (if_neg hcell).symm rfl
  | attach cell =>
      by_cases hcell : cell < s.settingsCount
      · rw [Session.step, dif_pos hcell]
        exact lists_of_none rfl rfl rfl (if_pos hcell).symm
      · rw [Session.step, dif_neg hcell]
        exact lists_of_none rfl rfl rfl (if_neg hcell).symm

/-- A session is an earlier one after a step, as to what its cells hold, what is listed and
what is attached. -/
structure Follows (stack : CallStack) (s : Session) (step : Step) (t : Session) : Prop
    extends Assigns s step t, Lists stack s step t

theorem follows_step (h : CoherentCells {stack} s.rules) (step : Step) :
    Follows stack s step (s.step stack step) :=
  ⟨assigns_step h step, lists_step s step⟩

end Lists

section Engine

variable {stack : CallStack} {built s : Session}

/-- What an engine that was built over one session answers in a later one. -/
structure Holds (stack : CallStack) (built s : Session) : Prop where
  rules_le : built.ruleCount ≤ s.ruleCount
  settings_le : built.settingsCount ≤ s.settingsCount
  /-- An id leads to the last rule that carried it, with the values that it has now. -/
  get_eq : ∀ id i, IsLastWith built.rules built.listed id i →
    s.find? id = some (i.castLE rules_le) ∧
      (s.perform stack (.get id)).1 = .ok (.rule (s.rules.get (i.castLE rules_le)).rule)
  get_fails_iff : ∀ id, (s.perform stack (.get id)).1 = .error (.unknownRule id) ↔
    ∀ j ∈ built.listed, (built.rules.get j).rule.id ≠ id
  /-- The rules are those that are listed now, and the settings those attached then. -/
  matching_eq : ∀ day, (s.perform stack (.matching day)).1 =
    reply .reports (DateRules.matching stack
      (s.settings.get (built.attached.castLE settings_le)).strategy s.ruleSet.rules day)
  agenda_eq : ∀ start count, (s.perform stack (.agenda start count)).1 =
    reply .agenda (agendaOf stack (s.settings.get (built.attached.castLE settings_le)).strategy
      s.ruleSet.rules (window start
        (count.getD (s.settings.get (built.attached.castLE settings_le)).windowDays)))
  next_eq : ∀ id i, IsLastWith built.rules built.listed id i → ∀ start count,
    (s.perform stack (.next id start count)).1 =
      reply .day ((s.rules.get (i.castLE rules_le)).rule.readExpression stack >>= fun e =>
        nextOf e start
          (count.getD (s.settings.get (built.attached.castLE settings_le)).windowDays))

/-- The engine of a session answers as it was built, if nothing but that was kept. -/
theorem Keeps.holds (h : Keeps built.rebuild s) (hcoherent : CoherentCells {stack} s.rules) :
    Holds stack built s := by
  have hfind := h.find?
  have hheld : s.heldSettings = s.settings.get (built.attached.castLE h.settings_le) := by
    rw [heldSettings, h.held_eq]
    rfl
  have hlast : ∀ id i, IsLastWith built.rules built.listed id i →
      s.find? id = some (i.castLE h.rules_le) := by
    intro id i hi
    rw [hfind]
    exact congrArg (Option.map _) (lookUp_tableOf_eq_some_iff.mpr hi)
  refine ⟨h.rules_le, h.settings_le, ?_, ?_, ?_, ?_, ?_⟩
  · intro id i hi
    refine ⟨hlast id i hi, ?_⟩
    rw [perform, withRule_of_find? (hlast id i hi)]
    rfl
  · intro id
    have hnone : s.find? id = none ↔ ∀ j ∈ built.listed, (built.rules.get j).rule.id ≠ id := by
      rw [hfind, Option.map_eq_none_iff]
      exact lookUp_tableOf_eq_none_iff
    rw [← hnone, perform]
    cases hid : s.find? id with
    | none => simp [withRule_of_find?_eq_none hid]
    | some i => simp [withRule_of_find? hid]
  · intro day
    rw [perform_matching (Set.mem_singleton stack) hcoherent, hheld]
    rfl
  · intro start count
    rw [perform_agenda (Set.mem_singleton stack) hcoherent, countOf, hheld]
    rfl
  · intro id i hi start count
    have hanswers := Query.answers_next (Set.mem_singleton stack) (i.castLE h.rules_le) start
    rw [perform, withRule_of_find? (hlast id i hi), ask_fst hcoherent (hanswers _), get_rulesOf,
      countOf, hheld]
    rfl

/-- Steps are those before the engine was built last and those after that. -/
theorem exists_last_build (steps : List Step) :
    ∃ before after, .command .rebuild ∉ after ∧
      (steps = before ++ .command .rebuild :: after ∨ before = [] ∧ steps = after) := by
  induction steps with
  | nil => exact ⟨[], [], List.not_mem_nil, .inr ⟨rfl, rfl⟩⟩
  | cons step steps ih =>
      obtain ⟨before, after, hafter, rfl | ⟨rfl, rfl⟩⟩ := ih
      · exact ⟨step :: before, after, hafter, .inl rfl⟩
      -- No later step builds, so the first step is the last build or there is none.
      · by_cases hbuild : step = .command .rebuild
        · exact ⟨[], steps, hafter, .inl (by rw [hbuild]; rfl)⟩
        · refine ⟨[], step :: steps, ?_, .inr ⟨rfl, rfl⟩⟩
          rw [List.mem_cons, not_or]
          exact ⟨Ne.symm hbuild, hafter⟩

theorem find?_rebuild (h : (s.ruleSet.rules.map Rule.id).Nodup) {id : String}
    {i : Fin s.ruleCount} :
    s.rebuild.find? id = some i ↔ i ∈ s.listed ∧ (s.rules.get i).rule.id = id := by
  rw [ruleSet, List.map_map] at h
  exact lookUp_tableOf_of_nodup h

end Engine

/-- Whatever was done to a session, its engine finds the rules and uses the settings that
it found and used when it was built last, as they are now. No step but a new build changes
which ones these are, and a new build over rules of different ids finds these and no
others. -/
theorem engine_holds (stack : CallStack) (ruleSet : RuleSet) (steps : List Step) :
    let s := (start ruleSet).follow stack steps
    (∃ before after, .command .rebuild ∉ after ∧
      (steps = before ++ .command .rebuild :: after ∨ before = [] ∧ steps = after) ∧
      Holds stack ((start ruleSet).follow stack before) s) ∧
    (∀ step, step ≠ .command .rebuild → Keeps s (s.step stack step)) ∧
    (∀ step, Follows stack s step (s.step stack step)) ∧
    ((s.ruleSet.rules.map Rule.id).Nodup →
      (∀ i ∈ s.listed, (s.step stack (.command .rebuild)).find? (s.rules.get i).rule.id = some i) ∧
      ∀ id, (∀ r ∈ s.ruleSet.rules, r.id ≠ id) →
        (s.step stack (.command .rebuild)).find? id = none) := by
  intro s
  have hstart : CoherentCells {stack} (start ruleSet).rules :=
    coherent_start fun r _ => agreeOn_singleton stack r.condition
  have hcoherent : CoherentCells {stack} s.rules := coherent_follow hstart steps
  refine ⟨?_, fun step => keeps_step s, follows_step hcoherent, ?_⟩
  · obtain ⟨before, after, hafter, hsteps⟩ := exists_last_build steps
    -- A session that was never built anew is as if it had been at its start.
    have hs : s = ((start ruleSet).follow stack before).rebuild.follow stack after := by
      rcases hsteps with rfl | ⟨rfl, rfl⟩
      · exact List.foldl_append
      · rfl
    refine ⟨before, after, hafter, hsteps, Keeps.holds ?_ hcoherent⟩
    rw [hs]
    exact keeps_follow _ hafter
  · intro hdistinct
    refine ⟨fun i hi => (find?_rebuild hdistinct).mpr ⟨hi, rfl⟩, fun id hid => ?_⟩
    refine lookUp_tableOf_eq_none_iff.mpr fun j hj => hid (s.rules.get j).rule ?_
    exact List.mem_map.mpr ⟨j, hj, rfl⟩

/-- A copy that had its id when the engine was built is found under it, also after it was
renamed and taken from the list, and copied from where it is then. New settings are attached in
a cell of their own, which the engine does not use; the original is found when the engine is
built anew. -/
theorem engine_holds_copy :
    let copied : Step := .command (.copyRule "daily" ⟨none, none, some 5, none⟩)
    let replaced : Step := .command (.replaceSettings (.map [(.text "search_window_days", .int 7)]))
    let s := (start ⟨.default, [⟨"daily", "true", 0, none⟩]⟩).follow .least [copied,
      .command .rebuild, .command (.setId "daily" "renamed"), .command (.removeRule 1)]
    (s.perform .least (.get "daily")).1 = .ok (.rule ⟨"renamed", "true", 5, none⟩) ∧
      Keeps s (s.step .least replaced) ∧ (s.step .least replaced).attached.val = 1 ∧
      (s.step .least (.copyRule 1 ⟨some "again", none, none, none⟩)).listed.map Fin.val = [0, 2] ∧
      ((s.step .least (.command .rebuild)).find? "daily").map Fin.val = some 0 := by
  intro copied replaced s
  obtain ⟨⟨before, after, hafter, hsteps, hholds⟩, hkeeps, hfollows, hbuild⟩ :=
    engine_holds .least ⟨.default, [⟨"daily", "true", 0, none⟩]⟩ [copied, .command .rebuild,
      .command (.setId "daily" "renamed"), .command (.removeRule 1)]
  refine ⟨?_, hkeeps _ (by simp [replaced]), (hfollows replaced).attached_eq,
    (hfollows (.copyRule 1 ⟨some "again", none, none, none⟩)).listed_eq, ?_⟩
  · have hbefore : before = [copied] := by
      rcases hsteps with hsteps | ⟨-, rfl⟩
      · rcases before with _ | ⟨_, _ | ⟨_, _ | ⟨_, _ | ⟨_, _⟩⟩⟩⟩ <;> simp_all [copied]
      · simp at hafter
    subst hbefore
    exact (hholds.get_eq "daily" ⟨1, by decide⟩ ⟨rfl, [⟨0, by decide⟩], [], rfl, by simp⟩).2
  · exact congrArg (Option.map Fin.val) ((hbuild (by decide)).1 ⟨0, by decide⟩ (by decide))

end Session

end DateRules
