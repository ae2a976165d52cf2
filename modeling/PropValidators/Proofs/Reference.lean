import Mathlib.Data.List.Nodup
import PropValidators.Proofs.Text.Basic
import PropValidators.Reference
/-!
What makes a reference recognised: the part of its name after the last dot says which rule it is
for, so that no two rules cover one name, and names of one last part have one validator if they have
any, whatever name the framework is imported as.
-/
namespace PropValidators

/-- The part of a name after its last dot, the whole name if it has none. -/
def lastPart (name : Text) : Text := (name.reverse.takeWhile (· ≠ .char '.')).reverse

/-! ### Last parts -/

section LastPart

variable {name type : Text}

theorem takeWhile_dotless {part : Text} (h : .char '.' ∉ part) (before : Text) :
    (part.reverse ++ before).takeWhile (· ≠ .char '.') =
      part.reverse ++ before.takeWhile (· ≠ .char '.') := by
  apply List.takeWhile_append_of_pos
  intro p hp
  rw [decide_eq_true_eq]
  rintro rfl
  exact h (List.mem_reverse.mp hp)

theorem lastPart_dotless (h : .char '.' ∉ name) : lastPart name = name := by
  have hall := takeWhile_dotless h []
  rw [List.append_nil, List.takeWhile_nil, List.append_nil] at hall
  rw [lastPart, hall, List.reverse_reverse]

theorem lastPart_qualified (h : .char '.' ∉ type) (qualifier : Text) :
    lastPart (qualifier ++ "." ++ type) = type := by
  have hdot : (.char '.' :: qualifier.reverse).takeWhile (· ≠ CodePoint.char '.') = [] := rfl
  rw [lastPart, Text.append_dot, List.reverse_append, List.reverse_cons, List.append_assoc,
    List.singleton_append, takeWhile_dotless h, hdot, List.append_nil, List.reverse_reverse]

/-- What has no dot ends a name if and only if it ends the last part of it. -/
theorem isSuffixOf_lastPart {part : Text} (h : .char '.' ∉ part) (name : Text) :
    part.isSuffixOf (lastPart name) = part.isSuffixOf name := by
  rw [Bool.eq_iff_iff, List.isSuffixOf_iff_suffix, List.isSuffixOf_iff_suffix, lastPart]
  constructor
  · intro hsuffix
    have hlast := List.reverse_suffix.mpr
      (List.takeWhile_prefix (fun p => decide (p ≠ .char '.')) (l := name.reverse))
    rw [List.reverse_reverse] at hlast
    exact hsuffix.trans hlast
  · rintro ⟨before, rfl⟩
    rw [List.reverse_append, takeWhile_dotless h, List.reverse_append, List.reverse_reverse]
    exact List.suffix_append _ _

theorem lastPart_of_isFrameworkType (h : .char '.' ∉ type) {importName : Text}
    (hname : isFrameworkType name type importName = true) : lastPart name = type := by
  simp only [isFrameworkType, Bool.or_eq_true, decide_eq_true_eq] at hname
  rcases hname with (rfl | rfl) | rfl
  · exact lastPart_dotless h
  · exact lastPart_qualified h "React"
  · exact lastPart_qualified h importName

theorem isFrameworkType_qualified (importName type : Text) :
    isFrameworkType (importName ++ "." ++ type) type importName = true := by
  simp [isFrameworkType]

end LastPart

namespace ReferenceRule

/-- The types that are looked for under the name that the framework is imported as. -/
def frameworkTypes : List Text := nodeTypes ++ elementTypes ++ [("Ref" : Text)]

/-- The only rule that can cover names with a given last part. -/
def ofLastPart? (part : Text) : Option ReferenceRule :=
  if part ∈ nodeTypes then some node
  else if part ∈ ("Element" : Text) :: elementTypes then some element
  else if part = "Ref" then some ref
  else if ("Handler" : Text).isSuffixOf part then some handler
  else if ("Event" : Text).isSuffixOf part then some event
  else none

/-! ### One rule for one last part -/

theorem dotless_frameworkTypes :
    ∀ type ∈ ("Element" : Text) :: frameworkTypes, .char '.' ∉ type := by
  decide

variable {rule : ReferenceRule} {name importName : Text}

theorem lastPart_mem_of_any {types : List Text} (htypes : types ⊆ frameworkTypes)
    (h : types.any (isFrameworkType name · importName) = true) : lastPart name ∈ types := by
  obtain ⟨type, htype, hname⟩ := List.any_eq_true.mp h
  have hdotless := dotless_frameworkTypes type (List.mem_cons_of_mem _ (htypes htype))
  rw [lastPart_of_isFrameworkType hdotless hname]
  exact htype

/-- A last part with an ending that no type of the framework has is left to the rules for
endings. -/
theorem ofLastPart?_ending {part ending : Text}
    (hending : ∀ type ∈ ("Element" : Text) :: frameworkTypes, ending.isSuffixOf type = false)
    (h : ending.isSuffixOf part = true) :
    ofLastPart? part =
      if ("Handler" : Text).isSuffixOf part then some handler
      else if ("Event" : Text).isSuffixOf part then some event
      else none := by
  have hnotMem : part ∉ ("Element" : Text) :: frameworkTypes := by
    intro hmem
    rw [hending part hmem] at h
    cases h
  simp only [frameworkTypes, List.mem_cons, List.mem_append, not_or] at hnotMem
  obtain ⟨helement, ⟨hnode, helements⟩, href, -⟩ := hnotMem
  rw [ofLastPart?, if_neg hnode, if_neg (List.not_mem_cons_of_ne_of_not_mem helement helements),
    if_neg href]

/-- Whatever rule covers a name, under whatever import name, is the one for its last part. -/
theorem ofLastPart?_of_covers (hrule : rule ∈ all) (h : rule.covers name importName = true) :
    ofLastPart? (lastPart name) = some rule := by
  simp only [all, List.mem_cons, List.not_mem_nil, or_false] at hrule
  rcases hrule with rfl | rfl | rfl | rfl | rfl
  · exact if_pos (lastPart_mem_of_any (by decide) h)
  · have hlast : lastPart name ∈ ("Element" : Text) :: elementTypes := by
      rcases Bool.or_eq_true_iff.mp h with hname | hany
      · rw [lastPart_of_isFrameworkType (by decide) hname]
        exact List.mem_cons_self
      · exact List.mem_cons_of_mem _ (lastPart_mem_of_any (by decide) hany)
    have hnode : ∀ part ∈ ("Element" : Text) :: elementTypes, part ∉ nodeTypes := by decide
    rw [ofLastPart?, if_neg (hnode _ hlast), if_pos hlast]
  · rw [lastPart_of_isFrameworkType (by decide) h]
    rfl
  · have hlast : ("Handler" : Text).isSuffixOf (lastPart name) = true := by
      rw [isSuffixOf_lastPart (by decide)]
      exact h
    rw [ofLastPart?_ending (by decide) hlast, if_pos hlast]
  · have hlast : ("Event" : Text).isSuffixOf (lastPart name) = true := by
      rw [isSuffixOf_lastPart (by decide)]
      exact h
    -- Of two endings of a text the shorter one ends the longer one, and "Event" ends no "Handler".
    have hhandler : ¬("Handler" : Text).isSuffixOf (lastPart name) = true := by
      intro hboth
      rw [List.isSuffixOf_iff_suffix] at hlast hboth
      have hends : ("Event" : Text) <:+ ("Handler" : Text) :=
        List.suffix_of_suffix_length_le hlast hboth (by decide)
      revert hends
      decide
    rw [ofLastPart?_ending (by decide) hlast, if_neg hhandler, if_pos hlast]

/-- Rules that cover names of one last part, under whatever import names, are one rule. -/
theorem eq_of_covers {rule' : ReferenceRule} {name' importName' : Text}
    (hrule : rule ∈ all) (hrule' : rule' ∈ all) (hlast : lastPart name = lastPart name')
    (h : rule.covers name importName = true) (h' : rule'.covers name' importName' = true) :
    rule = rule' := by
  have hof := ofLastPart?_of_covers hrule h
  rw [hlast, ofLastPart?_of_covers hrule' h'] at hof
  exact (Option.some.inj hof).symm

/-! ### Tables of rules -/

/-- The validator by a table of rules: that of the first rule to cover the name. -/
def validatorAmong (rules : List ReferenceRule) (name importName : Text) : Option Validator :=
  (rules.find? fun rule => rule.covers name importName).map (·.validator)

theorem nodup_all : all.Nodup := by
  have hdescriptions : (all.map description).Nodup := by decide
  exact List.Nodup.of_map description hdescriptions

/-- A search among things of which at most one is looked for finds the same in any order. -/
theorem find?_eq_of_perm {α : Type} {p : α → Bool} {xs ys : List α} (hperm : xs.Perm ys)
    (hunique : ∀ x ∈ ys, ∀ y ∈ ys, p x = true → p y = true → x = y) :
    xs.find? p = ys.find? p := by
  cases hys : ys.find? p with
  | none =>
    rw [List.find?_eq_none] at hys ⊢
    intro x hx
    exact hys x (hperm.mem_iff.mp hx)
  | some y =>
    have hy : y ∈ ys := List.mem_of_find?_eq_some hys
    cases hxs : xs.find? p with
    | none =>
      rw [List.find?_eq_none] at hxs
      exact absurd (List.find?_some hys) (hxs y (hperm.mem_iff.mpr hy))
    | some x =>
      have hx : x ∈ ys := hperm.mem_iff.mp (List.mem_of_find?_eq_some hxs)
      rw [hunique x hx y hy (List.find?_some hxs) (List.find?_some hys)]

theorem length_matchingRules_le_one (name importName : Text) :
    (matchingRules name importName).length ≤ 1 := by
  have hnodup : (matchingRules name importName).Nodup := nodup_all.filter _
  have hmem : ∀ rule ∈ matchingRules name importName,
      rule ∈ all ∧ rule.covers name importName = true := fun _ => List.mem_filter.mp
  match hrules : matchingRules name importName with
  | [] | [_] => simp
  | first :: second :: rest =>
    rw [hrules] at hnodup hmem
    obtain ⟨hfirst, hcovers⟩ := hmem first (by simp)
    obtain ⟨hsecond, hcovers'⟩ := hmem second (by simp)
    obtain rfl := eq_of_covers hfirst hsecond rfl hcovers hcovers'
    simp at hnodup

end ReferenceRule

variable {name importName : Text} {v : Validator}

/-- The validator of a reference, if it has one, is that of the rule for its last part. -/
theorem validator_of_lastPart (h : validatorOfReference name importName = some v) :
    (ReferenceRule.ofLastPart? (lastPart name)).map ReferenceRule.validator = some v := by
  simp only [validatorOfReference, Option.map_eq_some_iff] at h
  obtain ⟨rule, hfind, rfl⟩ := h
  have hcovers : rule.covers name importName = true := by simpa using List.find?_some hfind
  rw [ReferenceRule.ofLastPart?_of_covers (List.mem_of_find?_eq_some hfind) hcovers]
  rfl

/-- A name that some rule covers has the validator of the rule for its last part. -/
theorem validatorOfReference_of_covers {rule : ReferenceRule} (hrule : rule ∈ ReferenceRule.all)
    (h : rule.covers name importName = true) :
    validatorOfReference name importName =
      (ReferenceRule.ofLastPart? (lastPart name)).map ReferenceRule.validator := by
  cases hv : validatorOfReference name importName with
  | some v => exact (validator_of_lastPart hv).symm
  | none =>
    rw [validatorOfReference, Option.map_eq_none_iff, List.find?_eq_none] at hv
    exact absurd h (hv rule hrule)

/-- A name whose last part ends as handlers or events do has its validator by that last part,
whatever stands before it and whatever the import name is. -/
theorem validatorOfReference_of_ending {part : Text}
    (h : ("Handler" : Text) <:+ part ∨ ("Event" : Text) <:+ part) :
    ∃ v, ∀ name importName, lastPart name = part →
      validatorOfReference name importName = some v := by
  have hcovered (rule : ReferenceRule) (hrule : rule ∈ ReferenceRule.all)
      (hcovers : ∀ name importName, lastPart name = part →
        rule.covers name importName = true) :
      ∀ name importName, lastPart name = part →
        validatorOfReference name importName = some rule.validator := by
    intro name importName hlast
    have hrule' := hcovers name importName hlast
    rw [validatorOfReference_of_covers hrule hrule',
      ReferenceRule.ofLastPart?_of_covers hrule hrule']
    rfl
  rcases h with h | h
  · refine ⟨_, hcovered .handler (by simp [ReferenceRule.all]) ?_⟩
    rintro name importName rfl
    show ("Handler" : Text).isSuffixOf name = true
    rw [← isSuffixOf_lastPart (by decide), List.isSuffixOf_iff_suffix]
    exact h
  · refine ⟨_, hcovered .event (by simp [ReferenceRule.all]) ?_⟩
    rintro name importName rfl
    show ("Event" : Text).isSuffixOf name = true
    rw [← isSuffixOf_lastPart (by decide), List.isSuffixOf_iff_suffix]
    exact h

/-- The rules for references exclude each other: at most one of them covers a name, whatever the
name and the import name are, so that a table of the same rules in any order gives the same
validators. Names of one last part have the same validator if they have any, under whatever import
names; and all of them have one if that part ends as handlers or events do. -/
theorem references_are_for_one_rule :
    (∀ name importName, (matchingRules name importName).length ≤ 1) ∧
    (∀ rules : List ReferenceRule, rules.Perm ReferenceRule.all → ∀ name importName,
      ReferenceRule.validatorAmong rules name importName =
        validatorOfReference name importName) ∧
    (∀ name name' importName importName' v v', lastPart name = lastPart name' →
      validatorOfReference name importName = some v →
      validatorOfReference name' importName' = some v' → v = v') ∧
    (∀ part, ("Handler" : Text) <:+ part ∨ ("Event" : Text) <:+ part →
      ∃ v, ∀ name importName, lastPart name = part →
        validatorOfReference name importName = some v) := by
  refine ⟨ReferenceRule.length_matchingRules_le_one, ?_, ?_, ?_⟩
  · intro rules hperm name importName
    have hunique : ∀ rule ∈ ReferenceRule.all, ∀ rule' ∈ ReferenceRule.all,
        rule.covers name importName = true → rule'.covers name importName = true → rule = rule' :=
      fun _ hrule _ hrule' h h' => ReferenceRule.eq_of_covers hrule hrule' rfl h h'
    rw [ReferenceRule.validatorAmong, ReferenceRule.find?_eq_of_perm hperm hunique]
    rfl
  · intro name name' importName importName' v v' hlast hv hv'
    have hof := validator_of_lastPart hv
    rw [hlast, validator_of_lastPart hv'] at hof
    exact (Option.some.inj hof).symm
  · intro part hending
    exact validatorOfReference_of_ending hending

/-- Where the framework is imported under a name with a dot, the rules in reverse order give the
same validator. A type of it has the validator that it has where it is imported under no name, and
what stands before the name of a handler makes no difference. -/
theorem references_under_dotted_name_are_for_one_rule :
    ReferenceRule.validatorAmong ReferenceRule.all.reverse "my.ui.ReactNode" "my.ui" =
        validatorOfReference "my.ui.ReactNode" "my.ui" ∧
      validatorOfReference "my.ui.ReactNode" "my.ui" = validatorOfReference "ReactNode" "" ∧
      validatorOfReference "my.ui.ClickHandler" "JSX" =
        validatorOfReference "ClickHandler" "my.ui" := by
  obtain ⟨-, htables, hparts, hendings⟩ := references_are_for_one_rule
  refine ⟨htables _ (List.reverse_perm _) _ _, ?_, ?_⟩
  · have hqualified : validatorOfReference "my.ui.ReactNode" "my.ui" = some (.member "node") := rfl
    have hbare : validatorOfReference "ReactNode" "" = some (.member "node") := rfl
    rw [hqualified, hbare, hparts _ _ _ _ _ _ (by decide) hqualified hbare]
  · obtain ⟨v, hv⟩ := hendings "ClickHandler" (by decide)
    rw [hv "my.ui.ClickHandler" "JSX" (by decide), hv "ClickHandler" "my.ui" (by decide)]

end PropValidators
