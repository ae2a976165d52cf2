import PropValidators.Proofs.Conversion.Accounting
import PropValidators.Proofs.Conversion.Comparison
/-!
What conversion takes from its setting: the validators of the references that it visits, and nothing
else.
-/
namespace PropValidators

/-- The validator that a reference has under a setting, none if its name is not recognised. -/
def Setting.validatorOf (setting : Setting) (name : EntityName) : Option Validator :=
  validatorOfReference (setting.resolve name) setting.importName

/-- Two settings give the same validators to the references among visits. -/
def Setting.AgreeOn (s t : Setting) (visits : List Visit) : Prop :=
  ∀ name, .reference name ∈ visits → s.validatorOf name = t.validatorOf name

/-- What conversion of a selection comes by. -/
def selectedVisits (groups : Groups) (names : List Text) : List Visit :=
  (selectedProperties groups names).flatMap Property.visits

variable {s t : Setting}

theorem Setting.AgreeOn.mono {visits visits' : List Visit} (h : s.AgreeOn t visits')
    (hsubset : visits ⊆ visits') : s.AgreeOn t visits :=
  fun name hname => h name (hsubset hname)

theorem Setting.AgreeOn.of_mem {α : Type} {xs : List α} {x : α} {visits : α → List Visit}
    (h : s.AgreeOn t (xs.flatMap visits)) (hx : x ∈ xs) : s.AgreeOn t (visits x) :=
  fun name hname => h name (List.mem_flatMap.mpr ⟨x, hx, hname⟩)

/-- The visits to the type of a property are among those to the property. -/
theorem Property.visits_type {p : Property} {type : TypeExpr} (h : p.type = some type) :
    type.visits false ⊆ p.visits := by
  obtain ⟨key, _, optional⟩ := p
  cases h
  exact List.subset_cons_self _ _

theorem Property.convertAlike_self {p : Property}
    (h : ∀ type, p.type = some type → type.ConvertAlike id s t type) :
    p.ConvertAlike id s t p where
  key_eq := rfl
  type_rel := by
    cases htype : p.type with
    | none => exact .none
    | some type => exact .some ⟨rfl, h type htype⟩
  require_eq := by
    rintro v w rfl
    rfl

/-- Under settings that agree on the references that are visited in a type, conversion of it is
alike. -/
theorem alike_of_agreeOn (inParentheses : Bool) (type : TypeExpr)
    (h : s.AgreeOn t (type.visits inParentheses)) :
    (convertWithin s inParentheses type).Alike (Option.map id)
      (convertWithin t inParentheses type) := by
  induction inParentheses, type using TypeExpr.convertedRec with
  | string | number | boolean | symbol | function | empty => exact .refl _
  | literal | index | nested | other => exact .refl _
  | reference b name arguments =>
    have hname : s.validatorOf name = t.validatorOf name := h name List.mem_cons_self
    rw [Setting.validatorOf, Setting.validatorOf] at hname
    rw [convertWithin, convertWithin, hname]
    exact .refl _
  | array b element ih => exact alike_array Validator.compositional_id b b (ih h)
  | indexed b type ih => exact alike_indexed Validator.compositional_id b b (ih h)
  | shape b members hshape ih =>
    rw [TypeExpr.visits_shape hshape] at h
    refine alike_shape Validator.compositional_id b b hshape hshape ?_
    refine List.forall₂_same.mpr fun p hp => Property.convertAlike_self fun type htype => ?_
    exact ih p hp type htype ((h.of_mem hp).mono (Property.visits_type htype))
  | union b types ih | intersection b types ih =>
    rw [TypeExpr.visits, TypeExpr.listVisits_eq] at h
    rw [convertWithin, convertWithin]
    exact alike_choice Validator.compositional_id rfl
      (List.forall₂_same.mpr fun type htype => ih type htype (h.of_mem htype))
  | parenthesized inner ih => exact ih h

theorem convert_eq_of_agreeOn {type : TypeExpr} (h : s.AgreeOn t (type.visits false)) :
    convert s type = convert t type := by
  have halike := alike_of_agreeOn false type h
  rw [Option.map_id] at halike
  exact halike.eq

theorem groupsAlike_of_agreeOn {groups : Groups} {names : List Text}
    (h : s.AgreeOn t (selectedVisits groups names)) :
    groups.ConvertAlike id s t groups names := by
  intro name hname
  cases hlookup : groups.lookup name with
  | none => exact .none
  | some properties =>
    refine .some (List.forall₂_same.mpr fun p hp => Property.convertAlike_self fun type htype => ?_)
    have hselected : p ∈ selectedProperties groups names :=
      mem_selectedProperties.mpr ⟨name, hname, properties, hlookup, hp⟩
    exact alike_of_agreeOn false type ((h.of_mem hselected).mono (Property.visits_type htype))

theorem convertSelection_eq_of_agreeOn {groups : Groups} {names : List Text}
    (h : s.AgreeOn t (selectedVisits groups names)) :
    convertSelection s groups names = convertSelection t groups names := by
  have halike := (groupsAlike_of_agreeOn h).alike_convertSelection
  rw [Assignment.mapValue_id, List.map_id_fun] at halike
  exact halike.eq

theorem findOmissions_eq_of_agreeOn {groups : Groups} {names : List Text}
    (h : s.AgreeOn t (selectedVisits groups names)) :
    findOmissions s groups names = findOmissions t groups names :=
  (groupsAlike_of_agreeOn h).findOmissions_eq

end PropValidators
