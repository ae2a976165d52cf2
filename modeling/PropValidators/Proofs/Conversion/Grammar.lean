import PropValidators.Proofs.Conversion.Retention
/-!
The language of converted validators: which names, factories and arguments they are made of, and
where one is marked as required.
-/
namespace PropValidators

open Relation

/-- The names of validators that conversion gives. -/
def emittedNames : List JoinedText :=
  ["string", "number", "bool", "symbol", "func", "node", "element", "object", "array"]

/-- Literal values that are those of a union or an intersection of literal types only, which
conversion comes to from a type. -/
def Site.Offers (s : Site) (literals : List Literal) : Prop :=
  ∃ b, s.Reaches ⟨b, .union (literals.map .literal)⟩ ∨
    s.Reaches ⟨b, .intersection (literals.map .literal)⟩

mutual

/-- The validators that conversion gives: a name, or a factory with one argument. Literal values
stand in them only to be chosen from, as they are `offered`; a validator that is marked as required
stands in them only as the value of an entry. -/
inductive Validator.Emitted (offered : List Literal → Prop) : Validator → Prop
  | member {name : JoinedText} : name ∈ emittedNames → Validator.Emitted offered (.member name)
  | arrayOf {v : Validator} :
    Validator.Emitted offered v → Validator.Emitted offered (.call "arrayOf" [.validator v])
  | objectOf {v : Validator} :
    Validator.Emitted offered v → Validator.Emitted offered (.call "objectOf" [.validator v])
  | shape {properties : List Assignment} : (∀ a ∈ properties, Assignment.Emitted offered a) →
      Validator.Emitted offered (.call "shape" [.object properties])
  | oneOf {literals : List Literal} : literals ≠ [] → offered literals →
      Validator.Emitted offered (.call "oneOf" [.array (literals.map .literal)])
  | oneOfType {validators : List Validator} : validators ≠ [] →
      (∀ v ∈ validators, Validator.Emitted offered v) →
        Validator.Emitted offered (.call "oneOfType" [.array (validators.map .validator)])

inductive Assignment.Emitted (offered : List Literal → Prop) : Assignment → Prop
  | optional {key : PropertyKey} {v : Validator} :
    Validator.Emitted offered v → Assignment.Emitted offered (.mk key v)
  | required {key : PropertyKey} {v : Validator} :
    Validator.Emitted offered v → Assignment.Emitted offered (.mk key (.required v))

end

variable {setting : Setting} {offered : List Literal → Prop}

theorem Validator.Emitted.ne_required {v w : Validator} (h : v.Emitted offered) :
    v ≠ .required w := by
  rintro rfl
  cases h

theorem Site.Next.offers {s t : Site} {literals : List Literal} (h : s.Next t)
    (hoffers : t.Offers literals) : s.Offers literals := by
  obtain ⟨b, hunion | hintersection⟩ := hoffers
  · exact ⟨b, .inl (.head h hunion)⟩
  · exact ⟨b, .inr (.head h hintersection)⟩

theorem emitted_rule {rule : ReferenceRule} (h : rule ∈ ReferenceRule.all) :
    rule.validator.Emitted offered := by
  have hmember : ∀ name ∈ emittedNames, (Validator.member name).Emitted offered :=
    fun _ hname => .member hname
  simp only [ReferenceRule.all, List.mem_cons, List.not_mem_nil, or_false] at h
  rcases h with rfl | rfl | rfl | rfl | rfl
  · exact hmember "node" (by decide)
  · exact hmember "element" (by decide)
  · have hnames : ∀ name ∈ (["string", "func", "object"] : List JoinedText),
        name ∈ emittedNames := by decide
    have hvalidators :
        ∀ v ∈ (["string", "func", "object"] : List JoinedText).map Validator.member,
        v.Emitted offered := by
      intro v hv
      obtain ⟨name, hname, rfl⟩ := List.mem_map.mp hv
      exact hmember name (hnames name hname)
    exact .oneOfType (List.cons_ne_nil _ _) hvalidators
  · exact hmember "func" (by decide)
  · exact hmember "object" (by decide)

theorem emitted_choice {types : List TypeExpr} {validators : List Validator} {v : Validator}
    (h : choice types validators = some v)
    (hliterals : ∀ literals, types = literals.map .literal → offered literals)
    (hvalidators : ∀ w ∈ validators, w.Emitted offered) : v.Emitted offered := by
  rcases choice_cases h with ⟨literals, hne, htypes, rfl⟩ | ⟨hne, rfl⟩
  · exact .oneOf hne (hliterals literals htypes)
  · exact .oneOfType hne hvalidators

theorem emitted_convertTypes {types : List TypeExpr}
    (h : ∀ t ∈ types, ∀ v, (convert setting t).value = some v → v.Emitted offered) :
    ∀ v ∈ (convertTypes setting types).value, v.Emitted offered := by
  intro v hv
  rw [convertTypes_value] at hv
  obtain ⟨t, ht, hv⟩ := List.mem_filterMap.mp hv
  exact h t ht v hv

theorem emitted_convertProperties {properties : List Property}
    (h : ∀ p ∈ properties, ∀ type, p.type = some type →
      ∀ v, (convert setting type).value = some v → v.Emitted offered) :
    ∀ a ∈ (convertProperties setting properties).value, a.Emitted offered := by
  intro a ha
  rw [convertProperties_value] at ha
  obtain ⟨p, hp, ha⟩ := List.mem_filterMap.mp ha
  simp only [convertProperty_value, Option.map_eq_some_iff, Option.bind_eq_some_iff] at ha
  obtain ⟨v, ⟨type, htype, hv⟩, rfl⟩ := ha
  have hemitted : v.Emitted offered := h p hp type htype v hv
  unfold Validator.require
  split
  · exact .optional hemitted
  · exact .required hemitted

/-- What is converted is of the language, whatever literals are offered beside those that the type
offers. The induction carries the offers along: those of a part are offers of the whole. -/
theorem emitted_convertWithin (inParentheses : Bool) (type : TypeExpr) :
    ∀ offered : List Literal → Prop,
      (∀ literals, Site.Offers ⟨inParentheses, type⟩ literals → offered literals) →
        ∀ v, (convertWithin setting inParentheses type).value = some v → v.Emitted offered := by
  induction inParentheses, type using TypeExpr.convertedRec with
  | string | number | boolean | symbol | function | empty =>
    intro offered hoffers v h
    simp only [convertWithin, Traced.value_pure, Option.some.injEq] at h
    subst h
    exact .member (by decide)
  | literal | index | nested | other =>
    intro offered hoffers v h
    simp [convertWithin] at h
  | reference b name arguments =>
    intro offered hoffers v h
    simp only [convertWithin, Traced.value_bind, Traced.value_pure] at h
    obtain ⟨rule, hrule, rfl⟩ := exists_rule_of_reference h
    exact emitted_rule hrule
  | array b element ih =>
    intro offered hoffers v h
    rw [convertWithin_array_value, Option.some.injEq] at h
    subst h
    cases helement : (convert setting element).value with
    | none => exact .member (by decide)
    | some w =>
      exact .arrayOf (ih offered (fun _ ho => hoffers _ ((Site.Next.element b _).offers ho)) w
        helement)
  | indexed b type ih =>
    intro offered hoffers v h
    rw [convertWithin_indexed_value, Option.map_eq_some_iff] at h
    obtain ⟨w, hw, rfl⟩ := h
    exact .objectOf (ih offered (fun _ ho => hoffers _ ((Site.Next.indexed b _).offers ho)) w hw)
  | shape b members hshape ih =>
    intro offered hoffers v h
    rw [convertWithin_shape_value b hshape, Option.some.injEq] at h
    subst h
    refine .shape (emitted_convertProperties fun p hp type htype => ?_)
    exact ih p hp type htype offered
      fun _ ho => hoffers _ ((Site.Next.property b hshape hp htype).offers ho)
  | union b types ih =>
    intro offered hoffers v h
    refine emitted_choice h ?_ (emitted_convertTypes fun t ht => ?_)
    · rintro literals rfl
      exact hoffers literals ⟨b, .inl .refl⟩
    · exact ih t ht offered fun _ ho => hoffers _ ((Site.Next.union b ht).offers ho)
  | intersection b types ih =>
    intro offered hoffers v h
    refine emitted_choice h ?_ (emitted_convertTypes fun t ht => ?_)
    · rintro literals rfl
      exact hoffers literals ⟨b, .inr .refl⟩
    · exact ih t ht offered fun _ ho => hoffers _ ((Site.Next.intersection b ht).offers ho)
  | parenthesized inner ih =>
    intro offered hoffers v h
    exact ih offered (fun _ ho => hoffers _ ((Site.Next.inside inner).offers ho)) v h

/-- What is converted is of the language with the literals that the type offers. -/
theorem emitted_convert {type : TypeExpr} {v : Validator}
    (h : (convert setting type).value = some v) : v.Emitted (Site.Offers ⟨false, type⟩) :=
  emitted_convertWithin false type _ (fun _ ho => ho) v h

/-! ### Entries -/

/-- An entry as a property gives it: under its key, with a validator of the language, which is
marked as required unless the property is optional. -/
structure Assignment.EmittedFor (p : Property) (a : Assignment) : Prop where
  key_eq : a.key = p.key
  value_emitted : ∃ type v, p.type = some type ∧ v.Emitted (Site.Offers ⟨false, type⟩) ∧
    a.value = if p.optional = some true then v else .required v
  required_iff : (∃ v, a.value = .required v) ↔ p.optional ≠ some true

theorem emittedFor_of_assignment {p : Property} {a : Assignment}
    (h : p.assignment? setting = some a) : a.EmittedFor p := by
  simp only [Property.assignment?, convertProperty_value, Option.map_eq_some_iff,
    Option.bind_eq_some_iff] at h
  obtain ⟨v, ⟨type, htype, hv⟩, rfl⟩ := h
  have hemitted := emitted_convert hv
  refine ⟨rfl, ⟨type, v, htype, hemitted, rfl⟩, ?_⟩
  simp only [Assignment.value, Validator.require]
  split
  · next hoptional => simp [hoptional, hemitted.ne_required]
  · next hoptional => simp [hoptional]

/-- What conversion gives is of the language: a name or a call, in which literal values are chosen
from as a union or an intersection of the type has them and only the values of entries are marked
as required. Every entry of a converted selection, at the top and at any depth, is as its property
gives it: under its key, with a value of the language that is marked as required unless the
property is optional. -/
theorem converted_validators_are_of_the_language (setting : Setting) :
    (∀ type v, (convert setting type).value = some v →
      v.Emitted (Site.Offers ⟨false, type⟩) ∧ ∀ w, v ≠ .required w) ∧
    (∀ groups names,
      let props := (convertSelection setting groups names).value
      List.Forall₂ Assignment.EmittedFor
        ((selectedProperties groups names).filter (Property.Converts setting)) props ∧
      List.Forall₂ Assignment.EmittedFor
        ((visitedSignatures groups names).filter (Property.Converts setting))
        (Assignment.listEntries props)) := by
  refine ⟨fun type v h => ⟨emitted_convert h, fun _ => (emitted_convert h).ne_required⟩, ?_⟩
  intro groups names props
  have hprops : props = _ := convertSelection_value_selected groups names
  have haccounts : Accounts setting (visitedSignatures groups names) _ _ :=
    accounts_convertProperties fun _ _ type _ => typeAccount false type
  constructor
  · rw [hprops, convertProperties_value]
    exact (forall₂_assignments _).imp fun _ _ => emittedFor_of_assignment
  · rw [hprops, haccounts.entries_eq]
    exact (forall₂_assignments _).imp fun _ _ => emittedFor_of_assignment

/-- Literals that are written twice, of which a list is made: they are offered as they are. -/
theorem repeated_literals_are_of_the_language :
    let setting : Setting := ⟨defaultImportName, EntityName.flatten⟩
    let literals : List Literal := [.string "a", .int 1, .string "a"]
    let type : TypeExpr := .array (.parenthesized (.union (literals.map .literal)))
    let v : Validator := .callOne "arrayOf" (.callArray "oneOf" (literals.map .literal))
    (convert setting type).value = some v ∧ v.Emitted (Site.Offers ⟨false, type⟩) := by
  intro setting literals type v
  have hv : (convert setting type).value = some v := rfl
  exact ⟨hv, ((converted_validators_are_of_the_language setting).1 type v hv).1⟩

end PropValidators
