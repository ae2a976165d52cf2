import PropValidators.Proofs.Conversion.Retention
import PropValidators.Proofs.Conversion.Setting
/-!
The names that conversion looks up: those of the type references that it visits, each once and in
the order of the source, whatever the setting makes of them.
-/
namespace PropValidators

open Relation

def Visit.reference? : Visit → Option EntityName
  | reference name => some name
  | property _ => none

/-- The names of the type references that conversion visits in a type. -/
def TypeExpr.references (inParentheses : Bool) (type : TypeExpr) : List EntityName :=
  (type.visits inParentheses).filterMap Visit.reference?

/-- The names of the type references that conversion visits in the type of a property. -/
def Property.references (p : Property) : List EntityName :=
  p.type.elim [] (TypeExpr.references false)

/-! ### References of a type by those of the types beneath it -/

theorem Property.references_eq (p : Property) :
    p.references = p.visits.filterMap Visit.reference? := by
  obtain ⟨key, type, optional⟩ := p
  cases type with
  | none => rfl
  | some type =>
    rw [visits, List.filterMap_cons_none rfl]
    rfl

theorem TypeExpr.references_union (b : Bool) (types : List TypeExpr) :
    (TypeExpr.union types).references b = types.flatMap (TypeExpr.references false) := by
  rw [references, visits_union, List.filterMap_flatMap]
  rfl

theorem TypeExpr.references_intersection (b : Bool) (types : List TypeExpr) :
    (TypeExpr.intersection types).references b = types.flatMap (TypeExpr.references false) :=
  references_union b types

theorem TypeExpr.references_shape {members : List Member} (h : IsShape members) (b : Bool) :
    (TypeExpr.object members).references b =
      (propertiesOf members).flatMap Property.references := by
  rw [references, visits_shape h, List.filterMap_flatMap]
  congr 1
  funext p
  exact (Property.references_eq p).symm

/-! ### References that are reached -/

variable {setting : Setting}

theorem convertProperty_lookups {p : Property}
    (h : ∀ type, p.type = some type → (convert setting type).lookups = type.references false) :
    (convertProperty setting p).lookups = p.references := by
  obtain ⟨key, type, optional⟩ := p
  cases type with
  | none => rfl
  | some type =>
    have htype : (convertWithin setting false type).lookups = type.references false := h type rfl
    simp only [convertProperty, Traced.lookups_bind, htype, Property.references, Property.type,
      Option.elim_some]
    cases (convertWithin setting false type).value <;> simp

theorem convertWithin_lookups (inParentheses : Bool) (type : TypeExpr) :
    (convertWithin setting inParentheses type).lookups = type.references inParentheses := by
  induction inParentheses, type using TypeExpr.convertedRec with
  | string | number | boolean | symbol | function | empty => rfl
  | reference | literal | index | nested | other => rfl
  | array b element ih =>
    simp only [convertWithin, Traced.lookups_bind, ih]
    cases (convertWithin setting false element).value <;>
      simp [TypeExpr.references, TypeExpr.visits]
  | indexed b type ih =>
    simp [convertWithin, ih, TypeExpr.references, TypeExpr.visits]
  | shape b members hshape ih =>
    rw [convertWithin_shape b hshape, TypeExpr.references_shape hshape]
    simp only [Traced.lookups_bind, Traced.lookups_pure, List.append_nil,
      convertProperties_lookups]
    exact List.flatMap_congr fun p hp => convertProperty_lookups (ih p hp)
  | union b types ih =>
    rw [TypeExpr.references_union]
    simp only [convertWithin, Traced.lookups_bind, Traced.lookups_pure, List.append_nil,
      convertTypes_lookups]
    exact List.flatMap_congr ih
  | intersection b types ih =>
    rw [TypeExpr.references_intersection]
    simp only [convertWithin, Traced.lookups_bind, Traced.lookups_pure, List.append_nil,
      convertTypes_lookups]
    exact List.flatMap_congr ih
  | parenthesized inner ih => exact ih

end PropValidators
