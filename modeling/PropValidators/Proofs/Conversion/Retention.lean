import Mathlib.Data.List.Forall2
import Mathlib.Logic.Relation
import PropValidators.Proofs.Conversion.Accounting
/-!
Nothing that conversion reaches is lost: the validator of a type that is converted for another one
stands in the validator of that one, and every property signature on the way has its entry in the
result or its record in the log.
-/
namespace PropValidators

open Relation

/-- A type where conversion looks at it, inside of one layer of parentheses or not. -/
structure Site where
  inParentheses : Bool
  type : TypeExpr

def Site.conversion (setting : Setting) (s : Site) : Traced (Option Validator) :=
  convertWithin setting s.inParentheses s.type

/-- One step of conversion from a type on to one that is converted for it. -/
inductive Site.Next : Site → Site → Prop
  | element (b : Bool) (element : TypeExpr) : Next ⟨b, .array element⟩ ⟨false, element⟩
  | indexed (b : Bool) (type : TypeExpr) :
    Next ⟨b, .object [.index (some type)]⟩ ⟨false, type⟩
  | property (b : Bool) {members : List Member} {p : Property} {type : TypeExpr} :
    IsShape members → p ∈ propertiesOf members → p.type = some type →
      Next ⟨b, .object members⟩ ⟨false, type⟩
  | union (b : Bool) {types : List TypeExpr} {t : TypeExpr} :
    t ∈ types → Next ⟨b, .union types⟩ ⟨false, t⟩
  | intersection (b : Bool) {types : List TypeExpr} {t : TypeExpr} :
    t ∈ types → Next ⟨b, .intersection types⟩ ⟨false, t⟩
  | inside (inner : TypeExpr) : Next ⟨false, .parenthesized inner⟩ ⟨true, inner⟩

/-- A type that conversion comes to from another one, in any number of steps. -/
def Site.Reaches : Site → Site → Prop := ReflTransGen Site.Next

/-- A validator that another one is directly made of: an argument, an element of an argument, the
value of an entry, or what is marked as required. -/
inductive Validator.Holds : Validator → Validator → Prop
  | argument {factory : JoinedText} {arguments : List Argument} {v : Validator} :
    .validator v ∈ arguments → Holds (.call factory arguments) v
  | element {factory : JoinedText} {arguments : List Argument} {elements : List Element}
      {v : Validator} :
    .array elements ∈ arguments → .validator v ∈ elements → Holds (.call factory arguments) v
  | entry {factory : JoinedText} {arguments : List Argument} {properties : List Assignment}
      {a : Assignment} :
    .object properties ∈ arguments → a ∈ properties → Holds (.call factory arguments) a.value
  | required (v : Validator) : Holds (.required v) v

/-- A validator with another one in it, at any depth. -/
def Validator.Contains : Validator → Validator → Prop := ReflTransGen Validator.Holds

variable {setting : Setting}

/-! ### Validators are kept -/

theorem contains_require (v : Validator) (optional : Option Bool) :
    (v.require optional).Contains v := by
  unfold Validator.require
  split
  · exact .refl
  · exact .single (.required v)

/-- If any type has a validator, the choice is among the validators. -/
theorem choice_of_mem {types : List TypeExpr} {v : Validator}
    (h : v ∈ (convertTypes setting types).value) :
    choice types (convertTypes setting types).value =
      some (.callArray "oneOfType" ((convertTypes setting types).value.map .validator)) := by
  have hne : (convertTypes setting types).value ≠ [] := List.ne_nil_of_mem h
  cases hchoice : choice types (convertTypes setting types).value with
  | none => exact absurd (convertTypes_of_choice_eq_none hchoice) hne
  | some w =>
    rcases choice_cases hchoice with ⟨literals, -, rfl, -⟩ | ⟨-, rfl⟩
    · exact absurd (convertTypes_literals literals) hne
    · rfl

theorem exists_choice_contains {types : List TypeExpr} {t : TypeExpr} {v : Validator}
    (ht : t ∈ types) (hv : (convert setting t).value = some v) :
    ∃ w, choice types (convertTypes setting types).value = some w ∧ w.Contains v := by
  have hmem : v ∈ (convertTypes setting types).value := by
    rw [convertTypes_value]
    exact List.mem_filterMap.mpr ⟨t, ht, hv⟩
  exact ⟨_, choice_of_mem hmem,
    .single (.element List.mem_cons_self (List.mem_map_of_mem hmem))⟩

theorem exists_entry_contains {properties : List Property} {p : Property} {type : TypeExpr}
    {v : Validator} (hp : p ∈ properties) (htype : p.type = some type)
    (hv : (convert setting type).value = some v) :
    ∃ a ∈ (convertProperties setting properties).value, a.value.Contains v := by
  have ha : (convertProperty setting p).value = some (.mk p.key (v.require p.optional)) := by
    rw [convertProperty_value, htype, Option.bind_some, hv, Option.map_some]
  refine ⟨.mk p.key (v.require p.optional), ?_, contains_require v p.optional⟩
  rw [convertProperties_value]
  exact List.mem_filterMap.mpr ⟨p, hp, ha⟩

/-- What one step of conversion leads to is kept in what it comes from. -/
theorem Site.Next.kept {s t : Site} {v : Validator} (h : s.Next t)
    (hv : (t.conversion setting).value = some v) :
    ∃ w, (s.conversion setting).value = some w ∧ w.Contains v := by
  cases h with
  | element b element =>
    refine ⟨.callOne "arrayOf" v, ?_, .single (.argument List.mem_cons_self)⟩
    change (convert setting element).value = some v at hv
    rw [Site.conversion, convertWithin_array_value, hv, Option.elim_some]
  | indexed b type =>
    refine ⟨.callOne "objectOf" v, ?_, .single (.argument List.mem_cons_self)⟩
    change (convert setting type).value = some v at hv
    rw [Site.conversion, convertWithin_indexed_value, hv, Option.map_some]
  | property b hshape hp htype =>
    obtain ⟨a, ha, hcontains⟩ := exists_entry_contains hp htype hv
    exact ⟨_, convertWithin_shape_value b hshape,
      .head (.entry List.mem_cons_self ha) hcontains⟩
  | union b ht => exact exists_choice_contains ht hv
  | intersection b ht => exact exists_choice_contains ht hv
  | inside inner => exact ⟨v, hv, .refl⟩

/-- What conversion comes to in any number of steps is kept. -/
theorem Site.Reaches.kept {s t : Site} {v : Validator} (h : s.Reaches t)
    (hv : (t.conversion setting).value = some v) :
    ∃ w, (s.conversion setting).value = some w ∧ w.Contains v := by
  induction h using ReflTransGen.head_induction_on with
  | refl => exact ⟨v, hv, .refl⟩
  | head hstep _ ih =>
    obtain ⟨u, hu, hcontains⟩ := ih
    obtain ⟨w, hw, hholds⟩ := hstep.kept hu
    exact ⟨w, hw, hholds.trans hcontains⟩

/-! ### Signatures are accounted for -/

instance (setting : Setting) (p : Property) : Decidable (p.Converts setting) :=
  decidable_of_iff _ Property.isSome_assignment?

/-- The record that a property leaves if it has no entry. -/
def Property.dropped (p : Property) : Skip :=
  match p.type with
  | none => .unannotated p.name
  | some type => .unsupported p.name type.kind

theorem Property.skip?_of_not_converts {p : Property} (h : ¬p.Converts setting) :
    p.skip? setting = some p.dropped := by
  obtain ⟨key, type, optional⟩ := p
  cases type with
  | none => rfl
  | some type =>
    have hnone : ¬(convert setting type).value.isSome = true := by
      rw [Option.isSome_iff_exists]
      rintro ⟨v, hv⟩
      exact h ⟨type, v, rfl, hv⟩
    exact if_neg hnone

/-- The signatures that convert and their entries go together one by one. -/
theorem forall₂_assignments (visited : List Property) :
    List.Forall₂ (fun p a => p.assignment? setting = some a)
      (visited.filter (Property.Converts setting))
      (visited.filterMap (Property.assignment? setting)) := by
  induction visited with
  | nil => exact .nil
  | cons p visited ih =>
    cases ha : p.assignment? setting with
    | none =>
      have hp : ¬p.Converts setting := by simp [← Property.isSome_assignment?, ha]
      rw [List.filterMap_cons_none ha, List.filter_cons_of_neg (by simpa using hp)]
      exact ih
    | some a =>
      have hp : p.Converts setting := by simp [← Property.isSome_assignment?, ha]
      rw [List.filterMap_cons_some ha, List.filter_cons_of_pos (by simpa using hp)]
      exact .cons ha ih

theorem keys_assignments (visited : List Property) :
    (visited.filterMap (Property.assignment? setting)).map Assignment.key =
      (visited.filter (Property.Converts setting)).map Property.key := by
  have hkeys : List.Forall₂ (fun p a => p.key = a.key)
      (visited.filter (Property.Converts setting))
      (visited.filterMap (Property.assignment? setting)) :=
    (forall₂_assignments visited).imp fun _ _ ha => (Property.key_assignment ha).symm
  rw [← List.forall₂_map_right_iff, ← List.forall₂_map_left_iff, List.forall₂_eq_eq_eq] at hkeys
  exact hkeys.symm

theorem records_dropped (visited : List Property) :
    visited.filterMap (Property.skip? setting) =
      (visited.filter fun p => ¬p.Converts setting).map Property.dropped := by
  induction visited with
  | nil => rfl
  | cons p visited ih =>
    by_cases hp : p.Converts setting
    · rw [List.filterMap_cons_none (Property.skip?_eq_none.mpr hp), ih,
        List.filter_cons_of_neg (by simpa using hp)]
    · rw [List.filterMap_cons_some (Property.skip?_of_not_converts hp),
        List.filter_cons_of_pos (by simpa using hp), List.map_cons, ih]

/-- In order, the entries have the keys of the visited signatures that convert, and the others are
on record. -/
structure Tally (setting : Setting) (visited : List Property) (entries : List Assignment)
    (skips : List Skip) : Prop where
  keys_eq : entries.map Assignment.key =
    (visited.filter (Property.Converts setting)).map Property.key
  skips_eq : skips = (visited.filter fun p => ¬p.Converts setting).map Property.dropped

theorem Accounts.tally {visited : List Property} {entries : List Assignment} {skips : List Skip}
    (h : Accounts setting visited entries skips) : Tally setting visited entries skips where
  keys_eq := by rw [h.entries_eq, keys_assignments]
  skips_eq := by rw [h.skips_eq, records_dropped]

end PropValidators
