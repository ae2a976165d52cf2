import PropValidators.Proofs.Conversion.Change
import PropValidators.Proofs.Conversion.Lookups
/-!
What conversion does not look at: type arguments, how a name is put together, descriptions, whatever
stands in two layers of parentheses, and members of shapes that are not properties. Changes to these
have no influence on the result, the records and the look-ups.
-/
namespace PropValidators

open Relation

/-- Two names of the same text, which a setting resolves to the same. -/
def Setting.SameName (setting : Setting) (name name' : EntityName) : Prop :=
  name.flatten = name'.flatten ∧ setting.resolve name = setting.resolve name'

namespace TypeExpr

/-- Two types that differ in one thing that conversion does not look at. -/
inductive Unseen (setting : Setting) : TypeExpr → TypeExpr → Prop
  | reference {name name' : EntityName} (arguments arguments' : List TypeExpr) :
    setting.SameName name name' →
      Unseen setting (.reference name arguments) (.reference name' arguments')
  | description (description description' : JoinedText) :
    Unseen setting (.other description) (.other description')
  | nested (inner inner' : TypeExpr) :
    Unseen setting (.parenthesized (.parenthesized inner)) (.parenthesized (.parenthesized inner'))
  | member (before after : List Member) {member member' : Member} :
    member.property? = none → member'.property? = none → before ++ after ≠ [] →
      Unseen setting (.object (before ++ member :: after)) (.object (before ++ member' :: after))

/-- A union and an intersection of the same types. -/
inductive Exchanged : TypeExpr → TypeExpr → Prop
  | union (types : List TypeExpr) : Exchanged (.union types) (.intersection types)
  | intersection (types : List TypeExpr) : Exchanged (.intersection types) (.union types)

end TypeExpr

/-! ### Traces by visits -/

/-- What a visit leaves in the trace of a conversion: the record of a property that is skipped, or
the text of a name that is looked up. -/
def Visit.mark? (setting : Setting) : Visit → Option (Skip ⊕ Text)
  | reference name => some (.inr name.flatten)
  | property p => (p.skip? setting).map .inl

/-- What conversion leaves in its trace, in the order of its visits. -/
def TypeExpr.marks (setting : Setting) (inParentheses : Bool) (type : TypeExpr) :
    List (Skip ⊕ Text) :=
  (type.visits inParentheses).filterMap (Visit.mark? setting)

variable {setting : Setting}

theorem convert_skips_eq_marks (type : TypeExpr) :
    (convert setting type).skips = (type.marks setting false).filterMap Sum.getLeft? := by
  have haccount : TypeAccount setting false type := typeAccount false type
  rw [convert, haccount.accounts.skips_eq, TypeExpr.signatures, TypeExpr.marks,
    List.filterMap_filterMap, List.filterMap_filterMap]
  refine List.filterMap_congr fun visit _ => ?_
  cases visit with
  | reference name => rfl
  | property p =>
    simp only [Visit.property?, Visit.mark?, Option.bind_some]
    cases p.skip? setting <;> rfl

theorem convert_lookups_eq_marks (type : TypeExpr) :
    (convert setting type).lookups.map EntityName.flatten =
      (type.marks setting false).filterMap Sum.getRight? := by
  rw [convert, convertWithin_lookups, TypeExpr.references, TypeExpr.marks, List.map_filterMap,
    List.filterMap_filterMap]
  refine List.filterMap_congr fun visit _ => ?_
  cases visit with
  | reference name => rfl
  | property p =>
    simp only [Visit.reference?, Visit.mark?, Option.map_none]
    cases p.skip? setting <;> rfl

/-! ### Types that leave the same trace -/

namespace TypeExpr

/-- Two types that can be interchanged, have the same kind and leave the same trace. -/
structure Indistinct (setting : Setting) (t u : TypeExpr) : Prop
    extends t.Interchangeable setting u where
  kind_eq : t.kind = u.kind
  marks_eq : ∀ b, t.marks setting b = u.marks setting b

namespace Indistinct

variable {t u : TypeExpr}

theorem marks_choice (h : t.Indistinct setting u) (before after : List TypeExpr) (b : Bool) :
    (union (before ++ t :: after)).marks setting b =
      (union (before ++ u :: after)).marks setting b := by
  have hmarks := h.marks_eq false
  simp only [marks] at hmarks
  simp only [marks, visits_union, List.flatMap_append, List.flatMap_cons, List.filterMap_append,
    hmarks]

theorem marks_property (h : t.Indistinct setting u) (before after : List Member)
    (key : PropertyKey) (optional : Option Bool) (b : Bool) :
    (object (before ++ .property (.mk key (some t) optional) :: after)).marks setting b =
      (object (before ++ .property (.mk key (some u) optional) :: after)).marks setting b := by
  have hproperty : (Property.mk key (some t) optional).visits.filterMap (Visit.mark? setting) =
      (Property.mk key (some u) optional).visits.filterMap (Visit.mark? setting) := by
    have hconvert : (convert setting t).value = (convert setting u).value := h.value_eq false
    have hmarks := h.marks_eq false
    simp only [marks] at hmarks
    simp only [Property.visits, List.filterMap_cons, Visit.mark?, Property.skip?, Property.type,
      Property.name, Property.key, hconvert, h.kind_eq, hmarks]
  rw [marks, marks, visits_shape (isShape_append (.inl ⟨_, rfl⟩)),
    visits_shape (isShape_append (.inl ⟨_, rfl⟩))]
  simp only [propertiesOf_insert_property, List.flatMap_append, List.flatMap_cons,
    List.filterMap_append, hproperty]

theorem marks_index (h : t.Indistinct setting u) (before after : List Member) (b : Bool) :
    (object (before ++ .index (some t) :: after)).marks setting b =
      (object (before ++ .index (some u) :: after)).marks setting b := by
  by_cases hsole : before ≠ [] ∨ after ≠ []
  · exact congrArg (List.filterMap (Visit.mark? setting)) (visits_beside hsole rfl rfl)
  · obtain ⟨rfl, rfl⟩ : before = [] ∧ after = [] := by simpa using hsole
    exact h.marks_eq false

theorem marks_parenthesized (h : t.Indistinct setting u) (b : Bool) :
    (parenthesized t).marks setting b = (parenthesized u).marks setting b := by
  cases b with
  | true => rfl
  | false => exact h.marks_eq true

/-- Indistinct types are so in every context. -/
theorem fill (h : t.Indistinct setting u) (context : TypeContext) :
    (context.fill t).Indistinct setting (context.fill u) := by
  induction context with
  | hole => exact h
  | array element ih => exact ⟨ih.array, rfl, fun _ => ih.marks_eq false⟩
  | union before inner after ih => exact ⟨ih.union before after, rfl, ih.marks_choice before after⟩
  | intersection before inner after ih =>
    exact ⟨ih.intersection before after, rfl, ih.marks_choice before after⟩
  | parenthesized inner ih =>
    exact ⟨ih.toInterchangeable.parenthesized, rfl, ih.marks_parenthesized⟩
  | property before key type optional after ih =>
    exact ⟨ih.property before after key optional, rfl, ih.marks_property before after key optional⟩
  | index before type after ih => exact ⟨ih.index before after, rfl, ih.marks_index before after⟩
  | argument name before inner after ih =>
    exact ⟨.argument name before after, rfl, fun _ => rfl⟩

end Indistinct

/-! ### Changes that are not seen -/

theorem Unseen.indistinct {t u : TypeExpr} (h : t.Unseen setting u) : t.Indistinct setting u := by
  cases h with
  | @reference name name' arguments arguments' hname =>
    obtain ⟨htext, hresolve⟩ := hname
    refine ⟨⟨fun b => ?_, rfl, rfl⟩, rfl, fun b => ?_⟩
    · simp only [convertWithin, hresolve]
      rfl
    · simp only [marks, visits, List.filterMap_cons, Visit.mark?, htext]
  | description description description' =>
    exact ⟨⟨fun _ => rfl, rfl, rfl⟩, rfl, fun _ => rfl⟩
  | nested inner inner' =>
    refine ⟨⟨fun b => ?_, rfl, rfl⟩, rfl, fun b => ?_⟩
    · cases b <;> rfl
    · cases b <;> rfl
  | member before after hmember hmember' hne =>
    have hsole : before ≠ [] ∨ after ≠ [] := by simpa [or_iff_not_imp_left] using hne
    refine ⟨⟨fun b => ?_, rfl, rfl⟩, rfl, fun b => ?_⟩
    · rw [convertWithin_beside b hsole hmember hmember']
    · rw [marks, marks, visits_beside hsole hmember hmember']

theorem Exchanged.interchangeable {t u : TypeExpr} (h : t.Exchanged u) :
    t.Interchangeable setting u := by
  cases h <;> exact ⟨fun _ => rfl, rfl, rfl⟩

end TypeExpr

/-- What conversion does not look at has no influence. Types that differ, at any number of places,
in type arguments, in names of the same text that are resolved to the same, in descriptions, in what
stands in two layers of parentheses, or in members of shapes that are not properties have the same
result, the same records and look-ups of the same texts. Under the default resolver names of the
same text are always resolved to the same. If unions and intersections are exchanged as well, the
result is still the same. -/
theorem unseen_parts_have_no_influence (setting : Setting) :
    (∀ t u : TypeExpr, TypeExpr.Changed (TypeExpr.Unseen setting) t u →
      (convert setting t).value = (convert setting u).value ∧
      (convert setting t).skips = (convert setting u).skips ∧
      (convert setting t).lookups.map EntityName.flatten =
        (convert setting u).lookups.map EntityName.flatten) ∧
    (∀ name, setting.SameName name name) ∧
    (∀ importName name name', name.flatten = name'.flatten →
      Setting.SameName ⟨importName, EntityName.flatten⟩ name name') ∧
    (∀ t u : TypeExpr,
      TypeExpr.Changed (fun t u => t.Unseen setting u ∨ t.Exchanged u) t u →
        (convert setting t).value = (convert setting u).value) := by
  refine ⟨fun t u h => ?_, fun _ => ⟨rfl, rfl⟩, fun _ _ _ h => ⟨h, h⟩, fun t u h => ?_⟩
  · have hvalue : (convert setting t).value = (convert setting u).value :=
      h.eq_of_changedAt (fun t => (convert setting t).value) fun context p q hpq =>
        (hpq.indistinct.fill context).value_eq false
    have hmarks : t.marks setting false = u.marks setting false :=
      h.eq_of_changedAt (TypeExpr.marks setting false) fun context p q hpq =>
        (hpq.indistinct.fill context).marks_eq false
    refine ⟨hvalue, ?_, ?_⟩
    · rw [convert_skips_eq_marks, convert_skips_eq_marks, hmarks]
    · rw [convert_lookups_eq_marks, convert_lookups_eq_marks, hmarks]
  · refine h.eq_of_changedAt (fun t => (convert setting t).value) fun context p q hpq => ?_
    rcases hpq with hunseen | hexchanged
    · exact (hunseen.indistinct.fill context).value_eq false
    · exact (hexchanged.interchangeable.fill context).value_eq false

/-- A shape in which a name is put together in another way and loses its argument, an index
signature becomes a method, and another type is put into two layers of parentheses: nothing else
changes. Nor does the result of a union that becomes an intersection. -/
theorem unseen_parts_of_shape_have_no_influence :
    let setting : Setting := ⟨"R", EntityName.flatten⟩
    let key (name : JoinedText) : PropertyKey := .identifier name
    let shape (node : TypeExpr) (member : Member) (hidden : TypeExpr) : TypeExpr :=
      .object [.property (.mk (key "nodes") (some (.array node)) none), member,
        .property (.mk (key "size") (some (.parenthesized (.parenthesized hidden))) none)]
    let qualified : TypeExpr := .reference (.qualified (.identifier "R") "ReactNode") [.string]
    let flat : TypeExpr := .reference (.identifier "R.ReactNode") []
    let t := shape qualified (.index (some .string)) .number
    let u := shape flat (.method (key "m")) .string
    let union : TypeExpr := .union [.other "any", .string]
    let intersection : TypeExpr := .intersection [.other "never", .string]
    TypeExpr.Changed (TypeExpr.Unseen setting) t u ∧
      (convert setting t).value = (convert setting u).value ∧
      (convert setting t).skips = [.unsupported "size" "parenthesized"] ∧
      (convert setting t).skips = (convert setting u).skips ∧
      (convert setting t).lookups ≠ (convert setting u).lookups ∧
      (convert setting t).lookups.map EntityName.flatten =
        (convert setting u).lookups.map EntityName.flatten ∧
      TypeExpr.Changed (fun t u => t.Unseen setting u ∨ t.Exchanged u) union intersection ∧
      (convert setting union).value = (convert setting intersection).value := by
  intro setting key shape qualified flat t u union intersection
  obtain ⟨hsame, -, hname, hexchange⟩ := unseen_parts_have_no_influence setting
  have hchanged : TypeExpr.Changed (TypeExpr.Unseen setting) t u := by
    refine .head (.intro (.property [] (key "nodes") (.array .hole) none _)
      (.reference [.string] [] (hname "R" _ (.identifier "R.ReactNode") rfl))) ?_
    have hmethod : (Member.method (key "m")).property? = none := rfl
    refine .head (.intro .hole (.member [_] _ rfl hmethod (List.cons_ne_nil _ _))) ?_
    exact .single (.intro (.property [_, _] (key "size") .hole none []) (.nested .number .string))
  have hexchanged : TypeExpr.Changed (fun t u => t.Unseen setting u ∨ t.Exchanged u) union
      intersection := by
    refine .head (.intro (.union [] .hole [.string]) (.inl (.description "any" "never"))) ?_
    exact .single (.intro .hole (.inr (.union [.other "never", .string])))
  obtain ⟨hvalue, hskips, hlookups⟩ := hsame t u hchanged
  exact ⟨hchanged, hvalue, rfl, hskips, by decide, hlookups, hexchanged, hexchange _ _ hexchanged⟩

end PropValidators
