import Mathlib.Computability.RegularExpressions
import DateRules.Proofs.Rule.Issues

/-!
# The ids of rules

An id is written in groups of lower-case letters and digits with single hyphens between
them (`Kebab`), and a line feed may follow. That is what `idPattern` matches, and what
`isRuleId` finds out in one go through the characters (`isRuleId_iff`,
`rmatch_idPattern_iff`).

`accepted_ids` says that an id is reported exactly if it does not have this form, and that a
rule whose other parts are right is accepted exactly if its id has it.
-/

namespace DateRules

/-- A group of lower-case letters and digits. -/
structure IdGroup (g : List Char) : Prop where
  ne_nil : g ≠ []
  chars : ∀ c ∈ g, isIdChar c = true

/-- One or more groups with single hyphens between them. -/
def Kebab (cs : List Char) : Prop :=
  ∃ groups : List (List Char), groups ≠ [] ∧ (∀ g ∈ groups, IdGroup g) ∧
    cs = ['-'].intercalate groups

/-- The form of an id: a line feed may follow the groups. -/
def IdForm (cs : List Char) : Prop := Kebab cs ∨ ∃ u, Kebab u ∧ cs = u ++ ['\n']

section Groups

variable {cs g : List Char} {groups : List (List Char)} {c : Char}

theorem intercalate_cons (g : List Char) (groups : List (List Char)) :
    ['-'].intercalate (g :: groups) = g ++ groups.flatMap ('-' :: ·) := by
  induction groups generalizing g with
  | nil => simp
  | cons h groups ih => rw [List.intercalate_cons_cons, ih, List.flatMap_cons]; simp

/-- What is left of an id, where the first group may have begun before. -/
def KebabRest (inGroup : Bool) (cs : List Char) : Prop :=
  ∃ (g : List Char) (groups : List (List Char)), (inGroup = false → g ≠ []) ∧
    (∀ c ∈ g, isIdChar c = true) ∧ (∀ h ∈ groups, IdGroup h) ∧
    cs = g ++ groups.flatMap ('-' :: ·)

theorem kebab_iff_rest : Kebab cs ↔ KebabRest false cs := by
  constructor
  · rintro ⟨groups, hne, hgroups, rfl⟩
    obtain ⟨g, groups, rfl⟩ := List.exists_cons_of_ne_nil hne
    obtain ⟨hg, hrest⟩ := List.forall_mem_cons.mp hgroups
    exact ⟨g, groups, fun _ => hg.ne_nil, hg.chars, hrest, intercalate_cons g groups⟩
  · rintro ⟨g, groups, hne, hg, hgroups, rfl⟩
    exact ⟨g :: groups, List.cons_ne_nil g groups,
      List.forall_mem_cons.mpr ⟨⟨hne rfl, hg⟩, hgroups⟩, (intercalate_cons g groups).symm⟩

theorem kebabRest_nil {inGroup : Bool} : KebabRest inGroup [] ↔ inGroup = true := by
  constructor
  · rintro ⟨g, groups, hne, -, -, hnil⟩
    obtain ⟨rfl, -⟩ := List.append_eq_nil_iff.mp hnil.symm
    exact Bool.eq_true_of_not_eq_false fun h => hne h rfl
  · rintro rfl
    exact ⟨[], [], Bool.noConfusion, List.forall_mem_nil _, List.forall_mem_nil _, rfl⟩

theorem kebabRest_cons {inGroup : Bool} :
    KebabRest inGroup (c :: cs) ↔
      isIdChar c = true ∧ KebabRest true cs ∨ c = '-' ∧ inGroup = true ∧ KebabRest false cs := by
  constructor
  · rintro ⟨g, groups, hne, hg, hgroups, hcs⟩
    cases g with
    | cons d g =>
        obtain ⟨rfl, rfl⟩ := List.cons.inj hcs
        obtain ⟨hd, hg⟩ := List.forall_mem_cons.mp hg
        exact .inl ⟨hd, g, groups, Bool.noConfusion, hg, hgroups, rfl⟩
    | nil =>
        -- The group that had begun before ends here, with the hyphen before the next one.
        have hbegun : inGroup = true := Bool.eq_true_of_not_eq_false fun h => hne h rfl
        cases groups with
        | nil => cases hcs
        | cons h groups =>
            obtain ⟨hh, hgroups⟩ := List.forall_mem_cons.mp hgroups
            obtain ⟨rfl, rfl⟩ := List.cons.inj hcs
            exact .inr ⟨rfl, hbegun, h, groups, fun _ => hh.ne_nil, hh.chars, hgroups, rfl⟩
  · rintro (⟨hc, g, groups, -, hg, hgroups, rfl⟩ | ⟨rfl, rfl, g, groups, hne, hg, hgroups, rfl⟩)
    · exact ⟨c :: g, groups, fun _ => List.cons_ne_nil c g, List.forall_mem_cons.mpr ⟨hc, hg⟩,
        hgroups, rfl⟩
    · exact ⟨[], g :: groups, Bool.noConfusion, List.forall_mem_nil _,
        List.forall_mem_cons.mpr ⟨⟨hne rfl, hg⟩, hgroups⟩, rfl⟩

theorem isKebabFrom_iff {inGroup : Bool} :
    isKebabFrom inGroup cs = true ↔ KebabRest inGroup cs := by
  induction cs generalizing inGroup with
  | nil => rw [isKebabFrom, kebabRest_nil]
  | cons c cs ih =>
      rw [isKebabFrom, kebabRest_cons, ← ih, ← ih]
      cases hc : isIdChar c with
      | false => simp [and_assoc]
      | true =>
          have hne : c ≠ '-' := by
            rintro rfl
            cases hc
          simp [hne]

theorem isKebab_iff : isKebab cs = true ↔ Kebab cs := by
  rw [isKebab, isKebabFrom_iff, kebab_iff_rest]

instance : Decidable (Kebab cs) := decidable_of_iff _ isKebab_iff

theorem isRuleId_iff : isRuleId cs = true ↔ IdForm cs := by
  rw [isRuleId, Bool.or_eq_true, Bool.and_eq_true, isKebab_iff, isKebab_iff, IdForm]
  refine or_congr_right ?_
  rw [beq_iff_eq, List.getLast?_eq_some_iff]
  constructor
  · rintro ⟨⟨u, rfl⟩, hu⟩
    rw [List.dropLast_concat] at hu
    exact ⟨u, hu, rfl⟩
  · rintro ⟨u, hu, rfl⟩
    refine ⟨⟨u, rfl⟩, ?_⟩
    rwa [List.dropLast_concat]

instance : Decidable (IdForm cs) := decidable_of_iff _ isRuleId_iff

/-- Letters, digits and hyphens, where the hyphens are neither at an end nor side by side. -/
structure HyphensApart (cs : List Char) : Prop where
  chars : ∀ c ∈ cs, isIdChar c = true ∨ c = '-'
  first : cs.head? ≠ some '-'
  last : cs.getLast? ≠ some '-'
  single : ¬ ['-', '-'] <:+: cs

/-- What is left of an id may begin with a hyphen only where a group has begun before. -/
theorem KebabRest.hyphensApart {inGroup : Bool} (h : KebabRest inGroup cs) :
    (∀ c ∈ cs, isIdChar c = true ∨ c = '-') ∧ (inGroup = false → cs.head? ≠ some '-') ∧
      cs.getLast? ≠ some '-' ∧ ¬ ['-', '-'] <:+: cs := by
  induction cs generalizing inGroup with
  | nil => simp
  | cons c cs ih =>
      rw [List.infix_cons_iff, List.getLast?_cons, List.forall_mem_cons]
      rcases kebabRest_cons.mp h with ⟨hc, hrest⟩ | ⟨rfl, hbegun, hrest⟩
      · have hne : c ≠ '-' := by
          rintro rfl
          cases hc
        obtain ⟨hchars, -, hlast, hsingle⟩ := ih hrest
        refine ⟨⟨.inl hc, hchars⟩, ?_, ?_, ?_⟩
        · exact fun _ => by simpa using hne
        · cases hfinal : cs.getLast? with
          | none => simpa using hne
          | some d => simpa [hfinal] using hlast
        · rintro (hbegins | hinside)
          · exact hne (List.cons_prefix_cons.mp hbegins).1.symm
          · exact hsingle hinside
      · obtain ⟨hchars, hfirst, hlast, hsingle⟩ := ih hrest
        refine ⟨⟨.inr rfl, hchars⟩, ?_, ?_, ?_⟩
        · simp [hbegun]
        · cases hfinal : cs.getLast? with
          | none =>
              -- A group must follow the hyphen.
              rw [List.getLast?_eq_none_iff] at hfinal
              rw [hfinal, kebabRest_nil] at hrest
              cases hrest
          | some d => simpa [hfinal] using hlast
        · rintro (hbegins | hinside)
          · obtain ⟨tail, rfl⟩ := (List.cons_prefix_cons.mp hbegins).2
            exact hfirst rfl rfl
          · exact hsingle hinside

theorem Kebab.hyphensApart (h : Kebab cs) : HyphensApart cs := by
  obtain ⟨hchars, hfirst, hlast, hsingle⟩ := (kebab_iff_rest.mp h).hyphensApart
  exact ⟨hchars, hfirst rfl, hlast, hsingle⟩

/-- A line feed is in no group. -/
theorem not_kebab_lineFeed (u : List Char) : ¬ Kebab (u ++ ['\n']) := by
  intro h
  rcases h.hyphensApart.chars '\n' (List.mem_append_right _ (List.mem_singleton_self _))
    with hchar | hhyphen
  · cases hchar
  · cases hhyphen

/-- The groups alone are the ids, but for those before a line feed. -/
theorem idForm_iff_kebab_iff :
    (IdForm cs ↔ Kebab cs) ↔ ¬ ∃ u, Kebab u ∧ cs = u ++ ['\n'] := by
  constructor
  · rintro h ⟨u, hu, rfl⟩
    exact not_kebab_lineFeed u (h.mp (.inr ⟨u, hu, rfl⟩))
  · intro hnone
    exact ⟨fun hform => hform.resolve_right hnone, .inl⟩

end Groups

section Pattern

open RegularExpression

/-- The characters of the groups of an id. -/
def idChars : List Char := "abcdefghijklmnopqrstuvwxyz0123456789".toList

/-- The pattern of one character out of a list. -/
def oneOf : List Char → RegularExpression Char
  | [] => 0
  | c :: cs => char c + oneOf cs

/-- The pattern of a group. -/
def groupPattern : RegularExpression Char := oneOf idChars * star (oneOf idChars)

/-- The pattern of groups with single hyphens between them. -/
def kebabPattern : RegularExpression Char := groupPattern * star (char '-' * groupPattern)

/-- The pattern of an id up to the end of its text, before which there may be a line feed. -/
def idPattern : RegularExpression Char := kebabPattern * (1 + char '\n')

variable {cs : List Char} {c : Char}

theorem mem_idChars_iff : c ∈ idChars ↔ isIdChar c = true := by
  constructor
  · have hall : idChars.all isIdChar := by decide
    exact List.all_eq_true.mp hall c
  · intro h
    have hcode : c.toNat < 128 := by
      simp only [isIdChar, Bool.or_eq_true, Bool.and_eq_true, decide_eq_true_eq, Char.le_def,
        UInt32.le_iff_toNat_le] at h
      rcases h with ⟨-, h⟩ | ⟨-, h⟩
      · exact Nat.lt_of_le_of_lt h (by decide)
      · exact Nat.lt_of_le_of_lt h (by decide)
    have hall : ∀ n < 128, isIdChar (Char.ofNat n) = true → Char.ofNat n ∈ idChars := by decide
    have hmem := hall c.toNat hcode
    rw [Char.ofNat_toNat] at hmem
    exact hmem h

theorem rmatch_oneOf_iff {chars : List Char} :
    (oneOf chars).rmatch cs = true ↔ ∃ c ∈ chars, cs = [c] := by
  induction chars with
  | nil => simp [oneOf]
  | cons c chars ih => rw [oneOf, add_rmatch_iff, char_rmatch_iff, ih]; simp

theorem rmatch_groupPattern_iff : groupPattern.rmatch cs = true ↔ IdGroup cs := by
  rw [groupPattern, mul_rmatch_iff]
  simp only [rmatch_oneOf_iff, star_rmatch_iff, mem_idChars_iff]
  constructor
  · rintro ⟨_, _, rfl, ⟨c, hc, rfl⟩, parts, rfl, hparts⟩
    refine ⟨List.cons_ne_nil _ _, List.forall_mem_cons.mpr ⟨hc, ?_⟩⟩
    intro d hd
    obtain ⟨part, hpart, hmem⟩ := List.mem_flatten.mp hd
    obtain ⟨-, e, he, rfl⟩ := hparts part hpart
    obtain rfl := List.mem_singleton.mp hmem
    exact he
  · rintro ⟨hne, hchars⟩
    obtain ⟨c, cs, rfl⟩ := List.exists_cons_of_ne_nil hne
    obtain ⟨hc, hcs⟩ := List.forall_mem_cons.mp hchars
    refine ⟨[c], cs, rfl, ⟨c, hc, rfl⟩, cs.map fun d => [d], ?_, ?_⟩
    · rw [← List.flatMap_def, List.flatMap_singleton']
    · intro part hpart
      obtain ⟨d, hd, rfl⟩ := List.mem_map.mp hpart
      exact ⟨List.cons_ne_nil _ _, d, hcs d hd, rfl⟩

theorem rmatch_kebabPattern_iff : kebabPattern.rmatch cs = true ↔ Kebab cs := by
  rw [kebabPattern, mul_rmatch_iff, kebab_iff_rest]
  simp only [star_rmatch_iff, mul_rmatch_iff, char_rmatch_iff, rmatch_groupPattern_iff]
  constructor
  · rintro ⟨g, _, rfl, hg, parts, rfl, hparts⟩
    have hpart : ∀ part ∈ parts, part = '-' :: part.tail ∧ IdGroup part.tail := by
      intro part hmem
      obtain ⟨-, _, h, rfl, rfl, hh⟩ := hparts part hmem
      exact ⟨rfl, hh⟩
    refine ⟨g, parts.map List.tail, fun _ => hg.ne_nil, hg.chars, ?_, ?_⟩
    · exact List.forall_mem_map.mpr fun part hmem => (hpart part hmem).2
    · rw [List.flatMap_map, List.flatten_eq_flatMap]
      congr 1
      exact List.flatMap_congr fun part hmem => (hpart part hmem).1
  · rintro ⟨g, groups, hne, hg, hgroups, rfl⟩
    refine ⟨g, _, rfl, ⟨hne rfl, hg⟩, groups.map ('-' :: ·), List.flatMap_def, ?_⟩
    refine List.forall_mem_map.mpr fun h hmem => ⟨List.cons_ne_nil _ _, ?_⟩
    exact ⟨['-'], h, rfl, rfl, hgroups h hmem⟩

theorem rmatch_idPattern_iff : idPattern.rmatch cs = true ↔ IdForm cs := by
  rw [idPattern, mul_rmatch_iff]
  simp only [add_rmatch_iff, one_rmatch_iff, char_rmatch_iff, rmatch_kebabPattern_iff]
  constructor
  · rintro ⟨u, _, rfl, hu, rfl | rfl⟩
    · rw [List.append_nil]
      exact .inl hu
    · exact .inr ⟨u, hu, rfl⟩
  · rintro (hcs | ⟨u, hu, rfl⟩)
    · exact ⟨cs, [], (List.append_nil cs).symm, hcs, .inl rfl⟩
    · exact ⟨u, ['\n'], rfl, hu, .inr rfl⟩

end Pattern

namespace Rule

section Reports

variable {stack : CallStack} {entries : List (Value × Value)} {issue : Issue}

/-- The issues of a rule are those of its fields, in order. -/
theorem issues_ofValue (entries : List (Value × Value)) :
    Checked.issues (ofValue stack (.map entries)) =
      Checked.issues (requiredField entries "id" checkId) ++
        Checked.issues (requiredField entries "when" (checkCondition stack)) ++
        Checked.issues (optionalField entries "priority" 0 Value.toInteger) ++
        Checked.issues (optionalField entries "description" none checkDescription) := by
  rw [← Checked.issues_both, ← Checked.issues_both, ← Checked.issues_both, ofValue]
  split
  · next hchecks =>
      rw [hchecks]
      rfl
  · next issues hchecks =>
      rw [hchecks]
      rfl

/-- An issue of a rule is located at its id exactly if the check of the id reports it. -/
theorem mem_issues_id_iff :
    issue ∈ Checked.issues (ofValue stack (.map entries)) ∧
        issue.location.head? = some (.field "id") ↔
      issue ∈ Checked.issues (requiredField entries "id" checkId) := by
  have hother : ∀ name, name ≠ "id" → issue.location.head? = some (.field name) →
      issue.location.head? ≠ some (.field "id") := by
    intro name hne hname hid
    exact hne (Place.field.inj (Option.some.inj (hname.symm.trans hid)))
  simp only [issues_ofValue, List.mem_append]
  constructor
  · rintro ⟨((hmem | hmem) | hmem) | hmem, hid⟩
    · exact hmem
    · exact absurd hid (hother "when" (by decide) (location_of_requiredField hmem))
    · exact absurd hid (hother "priority" (by decide) (location_of_optionalField hmem))
    · exact absurd hid (hother "description" (by decide) (location_of_optionalField hmem))
  · intro hmem
    exact ⟨.inl (.inl (.inl hmem)), location_of_requiredField hmem⟩

theorem checkId_text (id : String) :
    checkId (.text id) =
      if isRuleId id.toList then .ok id else .fail (idIssue (.ofString id)) := rfl

/-- The id of a rule is reported if it does not have the form of one. -/
theorem issues_id_text {id : String} (h : Value.field? entries "id" = some (.text id)) :
    Checked.issues (requiredField entries "id" checkId) =
      if IdForm id.toList then [] else [⟨[.field "id"], idIssue (.ofString id)⟩] := by
  simp only [requiredField, h, checkId_text, isRuleId_iff]
  split <;> rfl

theorem idForm_of_checkId {v : Value} {id : String} (h : checkId v = .ok id) :
    IdForm id.toList := by
  unfold checkId at h
  split at h
  · cases h
  · split at h
    · split at h
      · next hid =>
          cases h
          exact isRuleId_iff.mp hid
      · cases h
    · cases h

theorem idForm_of_ofValue {v : Value} {r : Rule} (h : ofValue stack v = .ok r) :
    IdForm r.id.toList := by
  obtain ⟨entries, -, hid, -⟩ := ofValue_eq_ok_iff.mp h
  obtain ⟨data, -, hchecked⟩ := requiredField_eq_ok_iff.mp hid
  exact idForm_of_checkId hchecked

end Reports

end Rule

/-- An id is reported exactly if it does not have the form of one, and a rule with right other
parts is accepted exactly if it does. That is what the pattern of ids matches. The groups
alone, in which there are only letters, digits and single hyphens inside, are an id unless a
line feed follows them. -/
theorem accepted_ids (stack : CallStack) (id : String) :
    (∀ entries, Value.field? entries "id" = some (.text id) →
      ((∃ issue ∈ Checked.issues (Rule.ofValue stack (.map entries)),
        issue.location.head? = some (.field "id")) ↔ ¬ IdForm id.toList)) ∧
    (∀ entries codes, Value.field? entries "id" = some (.brokenText codes) →
      ∃ issue ∈ Checked.issues (Rule.ofValue stack (.map entries)),
        issue.location.head? = some (.field "id")) ∧
    (∀ r : Rule, r.id = id → r.Readable stack →
      (Rule.ofValue stack r.toValue = .ok r ↔ IdForm id.toList)) ∧
    (∀ v r, Rule.ofValue stack v = .ok r → r.id = id → IdForm id.toList) ∧
    (IdForm id.toList ↔ idPattern.rmatch id.toList = true) ∧
    ((IdForm id.toList ↔ Kebab id.toList) ↔ ¬ ∃ u, Kebab u ∧ id.toList = u ++ ['\n']) ∧
    (Kebab id.toList → HyphensApart id.toList) := by
  refine ⟨?_, ?_, ?_, ?_, rmatch_idPattern_iff.symm, idForm_iff_kebab_iff, Kebab.hyphensApart⟩
  · intro entries hid
    simp only [Rule.mem_issues_id_iff, Rule.issues_id_text hid]
    split
    · next hform => simpa using hform
    · next hform => simpa using hform
  · intro entries codes hid
    refine ⟨⟨[.field "id"], Rule.idIssue codes⟩, Rule.mem_issues_id_iff.mpr ?_⟩
    simp only [requiredField, hid, Rule.checkId]
    exact List.mem_singleton_self _
  · rintro r rfl hreadable
    constructor
    · exact Rule.idForm_of_ofValue
    · intro hform
      exact Rule.ofValue_toValue (isRuleId_iff.mpr hform) hreadable
  · rintro v r h rfl
    exact Rule.idForm_of_ofValue h

/-- An id of three groups, and one with a hyphen at its end. -/
theorem accepted_ids_groups :
    Rule.ofValue .least (Rule.toValue ⟨"pay-rent-2", "true", 0, none⟩) =
        .ok ⟨"pay-rent-2", "true", 0, none⟩ ∧
      HyphensApart "pay-rent-2".toList ∧
      ∃ issue ∈ Checked.issues (Rule.ofValue .least (.map [(.text "id", .text "pay-")])),
        issue.location.head? = some (.field "id") := by
  obtain ⟨-, -, haccepted, -, -, -, hapart⟩ := accepted_ids .least "pay-rent-2"
  obtain ⟨hreported, -⟩ := accepted_ids .least "pay-"
  refine ⟨(haccepted ⟨_, "true", 0, none⟩ rfl (Rule.readable_of_true rfl)).mpr (by decide),
    hapart (by decide), ?_⟩
  exact (hreported _ rfl).mpr (by decide)

/-- A line feed after the groups passes, and is no part of a group. -/
theorem accepted_ids_lineFeed :
    Rule.ofValue .least (Rule.toValue ⟨"a\n", "true", 0, none⟩) = .ok ⟨"a\n", "true", 0, none⟩ ∧
      ¬ Kebab "a\n".toList :=
  ⟨Rule.ofValue_toValue (by decide) (Rule.readable_of_true rfl), by decide⟩

end DateRules
