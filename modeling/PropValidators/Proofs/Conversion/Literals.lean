import PropValidators.Proofs.Conversion.Walk
import PropValidators.Request
/-!
The literal values in types and in validators. Conversion brings in none: whatever literal stands
in a validator stands in the type that it was converted from.
-/
namespace PropValidators

def PropertyKey.literals : PropertyKey → List Literal
  | identifier _ => []
  | literal value => [value]

mutual

/-- All literal values that stand anywhere in a type. -/
def TypeExpr.literals : TypeExpr → List Literal
  | .reference _ arguments => TypeExpr.listLiterals arguments
  | .array element => element.literals
  | .literal value => [value]
  | .object members => Member.listLiterals members
  | .union types | .intersection types => TypeExpr.listLiterals types
  | .parenthesized inner => inner.literals
  | .string | .number | .boolean | .symbol | .function | .other _ => []

def TypeExpr.listLiterals : List TypeExpr → List Literal
  | [] => []
  | type :: types => type.literals ++ TypeExpr.listLiterals types

def Member.listLiterals : List Member → List Literal
  | [] => []
  | .property p :: members => p.literals ++ Member.listLiterals members
  | .index (some type) :: members => type.literals ++ Member.listLiterals members
  | .index none :: members => Member.listLiterals members
  | .method key :: members => key.literals ++ Member.listLiterals members

def Property.literals : Property → List Literal
  | .mk key (some type) _ => key.literals ++ type.literals
  | .mk key none _ => key.literals

end

/-- All literal values that stand anywhere in the groups of a request. -/
def Request.literals (request : Request) : List Literal :=
  request.groups.flatMap fun group => group.2.flatMap Property.literals

mutual

/-- All literal values that stand anywhere in a validator. -/
def Validator.literals : Validator → List Literal
  | .member _ => []
  | .call _ arguments => Argument.listLiterals arguments
  | .required v => v.literals

def Argument.listLiterals : List Argument → List Literal
  | [] => []
  | .validator v :: arguments => v.literals ++ Argument.listLiterals arguments
  | .array elements :: arguments => Element.listLiterals elements ++ Argument.listLiterals arguments
  | .object properties :: arguments =>
    Assignment.listLiterals properties ++ Argument.listLiterals arguments

def Element.listLiterals : List Element → List Literal
  | [] => []
  | .validator v :: elements => v.literals ++ Element.listLiterals elements
  | .literal value :: elements => value :: Element.listLiterals elements

def Assignment.listLiterals : List Assignment → List Literal
  | [] => []
  | .mk key value :: assignments =>
    key.literals ++ value.literals ++ Assignment.listLiterals assignments

end

mutual

theorem Validator.hasNaN_eq : (v : Validator) → v.hasNaN = v.literals.any Literal.isNaN
  | .member _ => rfl
  | .call _ arguments => Validator.argumentsHaveNaN_eq arguments
  | .required v => Validator.hasNaN_eq v

theorem Validator.argumentsHaveNaN_eq : (arguments : List Argument) →
    Validator.argumentsHaveNaN arguments = (Argument.listLiterals arguments).any Literal.isNaN
  | [] => rfl
  | .validator v :: arguments => by
    simp [Validator.argumentsHaveNaN, Argument.listLiterals, Validator.hasNaN_eq v,
      Validator.argumentsHaveNaN_eq arguments]
  | .array elements :: arguments => by
    simp [Validator.argumentsHaveNaN, Argument.listLiterals, Validator.elementsHaveNaN_eq elements,
      Validator.argumentsHaveNaN_eq arguments]
  | .object properties :: arguments => by
    simp [Validator.argumentsHaveNaN, Argument.listLiterals,
      Validator.assignmentsHaveNaN_eq properties, Validator.argumentsHaveNaN_eq arguments]

theorem Validator.elementsHaveNaN_eq : (elements : List Element) →
    Validator.elementsHaveNaN elements = (Element.listLiterals elements).any Literal.isNaN
  | [] => rfl
  | .validator v :: elements => by
    simp [Validator.elementsHaveNaN, Element.listLiterals, Validator.hasNaN_eq v,
      Validator.elementsHaveNaN_eq elements]
  | .literal value :: elements => by
    simp [Validator.elementsHaveNaN, Element.listLiterals, Validator.elementsHaveNaN_eq elements]

theorem Validator.assignmentsHaveNaN_eq : (assignments : List Assignment) →
    Validator.assignmentsHaveNaN assignments =
      (Assignment.listLiterals assignments).any Literal.isNaN
  | [] => rfl
  | .mk (.identifier name) value :: assignments => by
    simp [Validator.assignmentsHaveNaN, Assignment.listLiterals, PropertyKey.literals,
      Validator.hasNaN_eq value, Validator.assignmentsHaveNaN_eq assignments]
  | .mk (.literal key) value :: assignments => by
    simp [Validator.assignmentsHaveNaN, Assignment.listLiterals, PropertyKey.literals,
      Validator.hasNaN_eq value, Validator.assignmentsHaveNaN_eq assignments, Bool.or_assoc]

end

/-! ### Lists of types, members and elements -/

theorem TypeExpr.listLiterals_eq (types : List TypeExpr) :
    TypeExpr.listLiterals types = types.flatMap TypeExpr.literals := by
  induction types with
  | nil => rfl
  | cons type types ih => simp [listLiterals, ih]

theorem Property.literals_eq (p : Property) :
    p.literals = p.key.literals ++ (p.type.elim [] TypeExpr.literals) := by
  obtain ⟨key, type, optional⟩ := p
  cases type <;> simp [literals, Property.key, Property.type]

theorem Assignment.listLiterals_eq (assignments : List Assignment) :
    Assignment.listLiterals assignments =
      assignments.flatMap fun a => a.key.literals ++ a.value.literals := by
  induction assignments with
  | nil => rfl
  | cons a assignments ih =>
    obtain ⟨key, value⟩ := a
    simp [listLiterals, ih, Assignment.key, Assignment.value]

theorem Property.literals_subset_members {p : Property} {members : List Member}
    (h : p ∈ propertiesOf members) : p.literals ⊆ Member.listLiterals members := by
  induction members with
  | nil => simp at h
  | cons member members ih =>
    cases member with
    | property q =>
      rw [propertiesOf_property, List.mem_cons] at h
      rw [Member.listLiterals]
      rcases h with rfl | h
      · exact List.subset_append_left _ _
      · exact List.subset_append_of_subset_right _ (ih h)
    | index type =>
      rw [propertiesOf_index] at h
      cases type with
      | none => simpa [Member.listLiterals] using ih h
      | some type => exact List.subset_append_of_subset_right _ (ih h)
    | method key => exact List.subset_append_of_subset_right _ (ih h)

@[simp] theorem Element.listLiterals_literals (literals : List Literal) :
    Element.listLiterals (literals.map .literal) = literals := by
  induction literals with
  | nil => rfl
  | cons value literals ih => simp [Element.listLiterals, ih]

@[simp] theorem Element.listLiterals_validators (validators : List Validator) :
    Element.listLiterals (validators.map .validator) = validators.flatMap Validator.literals := by
  induction validators with
  | nil => rfl
  | cons v validators ih => simp [Element.listLiterals, ih]

/-! ### Literals of what is converted -/

variable {setting : Setting}

theorem literals_choice {types : List TypeExpr} {validators : List Validator} {v : Validator}
    (h : choice types validators = some v)
    (hvalidators : ∀ w ∈ validators, w.literals ⊆ TypeExpr.listLiterals types) :
    v.literals ⊆ TypeExpr.listLiterals types := by
  rcases choice_cases h with ⟨literals, -, rfl, rfl⟩ | ⟨-, rfl⟩
  · have htypes : TypeExpr.listLiterals (literals.map .literal) = literals := by
      simp [TypeExpr.listLiterals_eq, List.flatMap_map, TypeExpr.literals]
    simp [Validator.callArray, Validator.literals, Argument.listLiterals, htypes]
  · intro value hvalue
    simp only [Validator.callArray, Validator.literals, Argument.listLiterals,
      Element.listLiterals_validators, List.append_nil] at hvalue
    obtain ⟨w, hw, hvalue⟩ := List.mem_flatMap.mp hvalue
    exact hvalidators w hw hvalue

theorem literals_validatorOfReference {name importName : Text} {v : Validator}
    (h : validatorOfReference name importName = some v) : v.literals = [] := by
  obtain ⟨rule, hrule, rfl⟩ := exists_rule_of_reference h
  have hall : ∀ rule ∈ ReferenceRule.all, rule.validator.literals = [] := by decide
  exact hall rule hrule

theorem literals_convertProperty {p : Property} {a : Assignment}
    (h : (convertProperty setting p).value = some a)
    (htype : ∀ type, p.type = some type → ∀ v, (convert setting type).value = some v →
      v.literals ⊆ type.literals) :
    a.key.literals ++ a.value.literals ⊆ p.literals := by
  rw [convertProperty_value] at h
  simp only [Option.map_eq_some_iff, Option.bind_eq_some_iff] at h
  obtain ⟨v, ⟨type, hp, hv⟩, rfl⟩ := h
  have hrequire : (v.require p.optional).literals = v.literals := by
    unfold Validator.require
    split <;> rfl
  rw [Property.literals_eq, hp]
  simp only [Assignment.key, Assignment.value, hrequire, Option.elim_some]
  exact List.append_subset.mpr
    ⟨List.subset_append_left _ _, List.subset_append_of_subset_right _ (htype type hp v hv)⟩

/-- Whatever literal stands in a validator stands in the type it was converted from. -/
theorem literals_convertWithin (inParentheses : Bool) (type : TypeExpr) :
    ∀ v, (convertWithin setting inParentheses type).value = some v →
      v.literals ⊆ type.literals := by
  induction inParentheses, type using TypeExpr.convertedRec with
  | string | number | boolean | symbol | function | empty =>
    intro v h
    simp only [convertWithin, Traced.value_pure, Option.some.injEq] at h
    subst h
    simp [Validator.literals]
  | literal | index | nested | other =>
    intro v h
    simp [convertWithin] at h
  | reference b name arguments =>
    intro v h
    simp only [convertWithin, Traced.value_bind, Traced.value_pure] at h
    simp [literals_validatorOfReference h]
  | array b element ih =>
    intro v h
    rw [convertWithin_array_value, Option.some.injEq] at h
    subst h
    cases helement : (convert setting element).value with
    | none => simp [Validator.literals]
    | some w =>
      simpa [Validator.callOne, Validator.literals, Argument.listLiterals, TypeExpr.literals]
        using ih w helement
  | indexed b type ih =>
    intro v h
    rw [convertWithin_indexed_value, Option.map_eq_some_iff] at h
    obtain ⟨w, hw, rfl⟩ := h
    simpa [Validator.callOne, Validator.literals, Argument.listLiterals, TypeExpr.literals,
      Member.listLiterals] using ih w hw
  | shape b members hshape ih =>
    intro v h
    rw [convertWithin_shape_value b hshape, Option.some.injEq] at h
    subst h
    simp only [Validator.literals, Argument.listLiterals, List.append_nil, TypeExpr.literals]
    intro value hvalue
    simp only [Assignment.listLiterals_eq, convertProperties_value, List.mem_flatMap,
      List.mem_filterMap] at hvalue
    obtain ⟨a, ⟨p, hp, ha⟩, hvalue⟩ := hvalue
    exact Property.literals_subset_members hp (literals_convertProperty ha (ih p hp) hvalue)
  | union b types ih | intersection b types ih =>
    intro v h
    refine literals_choice h fun w hw => ?_
    rw [convertTypes_value] at hw
    obtain ⟨t, ht, hw⟩ := List.mem_filterMap.mp hw
    intro value hvalue
    rw [TypeExpr.listLiterals_eq]
    exact List.mem_flatMap.mpr ⟨t, ht, ih t ht w hw hvalue⟩
  | parenthesized inner ih =>
    intro v h
    exact ih v h

theorem literals_convertProperties (properties : List Property) :
    Assignment.listLiterals (convertProperties setting properties).value ⊆
      properties.flatMap Property.literals := by
  intro value hvalue
  simp only [Assignment.listLiterals_eq, convertProperties_value, List.mem_flatMap,
    List.mem_filterMap] at hvalue ⊢
  obtain ⟨a, ⟨p, hp, ha⟩, hvalue⟩ := hvalue
  exact ⟨p, hp, literals_convertProperty ha (fun t _ => literals_convertWithin false t) hvalue⟩

/-- Whatever literal stands in a converted selection stands in the groups it was selected from. -/
theorem literals_convertSelection (groups : Groups) (names : List Text) :
    Assignment.listLiterals (convertSelection setting groups names).value ⊆
      groups.flatMap fun group => group.2.flatMap Property.literals := by
  induction names with
  | nil => simp [convertSelection, Assignment.listLiterals]
  | cons name names ih =>
    unfold convertSelection
    split
    · next properties hlookup =>
      simp only [Traced.value_bind, Traced.value_pure, Assignment.listLiterals_eq,
        List.flatMap_append, List.append_subset] at ih ⊢
      refine ⟨?_, ih⟩
      obtain ⟨before, after, rfl, -⟩ := List.lookup_eq_some_iff.mp hlookup
      intro value hvalue
      rw [← Assignment.listLiterals_eq] at hvalue
      refine List.mem_flatMap.mpr ⟨(name, properties), by simp, ?_⟩
      exact literals_convertProperties properties hvalue
    · exact ih

theorem convertSelection_hasNaN {request : Request}
    (h : request.literals.any Literal.isNaN = false) (names : List Text) :
    Validator.assignmentsHaveNaN (convertSelection setting request.groups names).value = false := by
  rw [Validator.assignmentsHaveNaN_eq, List.any_eq_false] at *
  exact fun value hvalue => h value (literals_convertSelection request.groups names hvalue)

end PropValidators
