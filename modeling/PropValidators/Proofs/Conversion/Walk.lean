import PropValidators.Conversion
/-!
How conversion walks through types: the conversions of lists as lists of conversions, and induction
over the types that are converted on the way.
-/
namespace PropValidators

variable {setting : Setting}

attribute [local simp] convertWithin convertTypes convertMembers

/-- The property signatures among members. -/
def propertiesOf (members : List Member) : List Property := members.filterMap Member.property?

@[simp] theorem propertiesOf_nil : propertiesOf [] = [] := rfl

@[simp] theorem propertiesOf_property (p : Property) (members : List Member) :
    propertiesOf (.property p :: members) = p :: propertiesOf members := rfl

@[simp] theorem propertiesOf_index (type : Option TypeExpr) (members : List Member) :
    propertiesOf (.index type :: members) = propertiesOf members := rfl

@[simp] theorem propertiesOf_method (key : PropertyKey) (members : List Member) :
    propertiesOf (.method key :: members) = propertiesOf members := rfl

theorem propertiesOf_insert_property (before after : List Member) (p : Property) :
    propertiesOf (before ++ .property p :: after) =
      propertiesOf before ++ p :: propertiesOf after := by
  rw [propertiesOf, List.filterMap_append]
  rfl

theorem propertiesOf_insert_other {member : Member} (h : member.property? = none)
    (before after : List Member) :
    propertiesOf (before ++ member :: after) = propertiesOf before ++ propertiesOf after := by
  rw [propertiesOf, List.filterMap_append, List.filterMap_cons_none h]
  rfl

theorem propertiesOf_map {f : Member → Member} {g : Property → Property}
    (h : ∀ member, (f member).property? = member.property?.map g) (members : List Member) :
    propertiesOf (members.map f) = (propertiesOf members).map g := by
  rw [propertiesOf, propertiesOf, List.filterMap_map, List.map_filterMap]
  exact congrArg (List.filterMap · members) (funext h)

/-- Members that make up a shape: any but no member at all and a sole index signature. -/
def IsShape (members : List Member) : Prop :=
  members ≠ [] ∧ ∀ type, members ≠ [.index type]

theorem members_cases (members : List Member) :
    members = [] ∨ (∃ type, members = [.index type]) ∨ IsShape members := by
  by_cases hempty : members = []
  · exact .inl hempty
  · by_cases hindex : ∃ type, members = [.index type]
    · exact .inr (.inl hindex)
    · exact .inr (.inr ⟨hempty, not_exists.mp hindex⟩)

theorem IsShape.map {f : Member → Member} {members : List Member} (h : IsShape members)
    (hf : ∀ member type, f member = .index type → ∃ type, member = .index type) :
    IsShape (members.map f) := by
  refine ⟨by simpa using h.1, fun type heq => ?_⟩
  obtain ⟨member, rfl, hmember⟩ := List.map_eq_singleton_iff.mp heq
  obtain ⟨type, rfl⟩ := hf member type hmember
  exact h.2 type rfl

/-- Members that are more than a sole index signature make up a shape. -/
theorem isShape_append {before after : List Member} {member : Member}
    (h : (∃ p, member = .property p) ∨ before ≠ [] ∨ after ≠ []) :
    IsShape (before ++ member :: after) := by
  refine ⟨by simp, fun type heq => ?_⟩
  obtain ⟨rfl, rfl, rfl⟩ : before = [] ∧ after = [] ∧ member = .index type := by
    cases before with
    | nil =>
      obtain ⟨rfl, rfl⟩ := List.cons.inj heq
      exact ⟨rfl, rfl, rfl⟩
    | cons first before => simp at heq
  simp at h

theorem convertTypes_value (types : List TypeExpr) :
    (convertTypes setting types).value = types.filterMap fun t => (convert setting t).value := by
  induction types with
  | nil => rfl
  | cons t types ih =>
    simp only [convertTypes, Traced.value_bind, Traced.value_pure, ih]
    cases h : (convert setting t).value <;> simp_all [convert]

theorem convertTypes_skips (types : List TypeExpr) :
    (convertTypes setting types).skips = types.flatMap fun t => (convert setting t).skips := by
  induction types with
  | nil => rfl
  | cons t types ih => simp [convert, ih]

theorem convertTypes_lookups (types : List TypeExpr) :
    (convertTypes setting types).lookups = types.flatMap fun t => (convert setting t).lookups := by
  induction types with
  | nil => rfl
  | cons t types ih => simp [convert, ih]

theorem convertProperties_value (properties : List Property) :
    (convertProperties setting properties).value =
      properties.filterMap fun p => (convertProperty setting p).value := by
  induction properties with
  | nil => rfl
  | cons p properties ih =>
    simp only [convertProperties, Traced.value_bind, Traced.value_pure, ih]
    cases h : (convertProperty setting p).value <;> simp_all

theorem convertProperties_skips (properties : List Property) :
    (convertProperties setting properties).skips =
      properties.flatMap fun p => (convertProperty setting p).skips := by
  induction properties with
  | nil => rfl
  | cons p properties ih => simp [convertProperties, ih]

theorem convertProperties_lookups (properties : List Property) :
    (convertProperties setting properties).lookups =
      properties.flatMap fun p => (convertProperty setting p).lookups := by
  induction properties with
  | nil => rfl
  | cons p properties ih => simp [convertProperties, ih]

theorem convertMembers_eq (members : List Member) :
    convertMembers setting members = convertProperties setting (propertiesOf members) := by
  induction members with
  | nil => rfl
  | cons member members ih =>
    cases member <;> simp [convertProperties, ih]

/-! ### Values and records of one type by those of the types beneath it -/

section Types

variable (inParentheses : Bool)

theorem convertWithin_array_value (element : TypeExpr) :
    (convertWithin setting inParentheses (.array element)).value =
      some ((convert setting element).value.elim (.member "array") (.callOne "arrayOf")) := by
  simp only [convertWithin, Traced.value_bind, convert]
  cases (convertWithin setting false element).value <;> rfl

theorem convertWithin_array_skips (element : TypeExpr) :
    (convertWithin setting inParentheses (.array element)).skips =
      (convert setting element).skips := by
  simp only [convertWithin, Traced.skips_bind, convert]
  cases (convertWithin setting false element).value <;> simp

theorem convertWithin_indexed_value (type : TypeExpr) :
    (convertWithin setting inParentheses (.object [.index (some type)])).value =
      (convert setting type).value.map (.callOne "objectOf") := by
  simp [convert]

theorem convertWithin_indexed_skips (type : TypeExpr) :
    (convertWithin setting inParentheses (.object [.index (some type)])).skips =
      (convert setting type).skips := by
  simp [convert]

/-- An object type whose members make up a shape converts to the shape of its properties. -/
theorem convertWithin_shape {members : List Member} (h : IsShape members) :
    convertWithin setting inParentheses (.object members) = do
      let entries ← convertProperties setting (propertiesOf members)
      return some (.call "shape" [.object entries]) := by
  rw [← convertMembers_eq, convertWithin]
  · exact h.1
  · exact h.2 none
  · exact fun type => h.2 (some type)

theorem convertWithin_shape_value {members : List Member} (h : IsShape members) :
    (convertWithin setting inParentheses (.object members)).value =
      some (.call "shape" [.object (convertProperties setting (propertiesOf members)).value]) := by
  rw [convertWithin_shape inParentheses h]
  rfl

theorem convertWithin_shape_skips {members : List Member} (h : IsShape members) :
    (convertWithin setting inParentheses (.object members)).skips =
      (convertProperties setting (propertiesOf members)).skips := by
  simp [convertWithin_shape inParentheses h]

/-- Beside other members one that is no property is not looked at. -/
theorem convertWithin_beside {before after : List Member} (hne : before ≠ [] ∨ after ≠ [])
    {member member' : Member} (h : member.property? = none) (h' : member'.property? = none) :
    convertWithin setting inParentheses (.object (before ++ member :: after)) =
      convertWithin setting inParentheses (.object (before ++ member' :: after)) := by
  rw [convertWithin_shape inParentheses (isShape_append (.inr hne)),
    convertWithin_shape inParentheses (isShape_append (.inr hne)), propertiesOf_insert_other h,
    propertiesOf_insert_other h']

/-- A property has its part in the validator of a shape by its entry alone. -/
theorem convertWithin_property_eq {p q : Property}
    (h : (convertProperty setting p).value = (convertProperty setting q).value)
    (before after : List Member) :
    (convertWithin setting inParentheses (.object (before ++ .property p :: after))).value =
      (convertWithin setting inParentheses (.object (before ++ .property q :: after))).value := by
  rw [convertWithin_shape_value inParentheses (isShape_append (.inl ⟨p, rfl⟩)),
    convertWithin_shape_value inParentheses (isShape_append (.inl ⟨q, rfl⟩)),
    propertiesOf_insert_property, propertiesOf_insert_property, convertProperties_value,
    convertProperties_value, List.filterMap_append, List.filterMap_append, List.filterMap_cons,
    List.filterMap_cons, h]

theorem convertWithin_union_skips (types : List TypeExpr) :
    (convertWithin setting inParentheses (.union types)).skips =
      (convertTypes setting types).skips := by
  simp

end Types

/-- Parentheses around a type matter only if it has some itself. -/
theorem convertWithin_of_bare {type : TypeExpr} (h : ∀ inner, type ≠ .parenthesized inner)
    (b c : Bool) : convertWithin setting b type = convertWithin setting c type := by
  cases type with
  | parenthesized inner => exact absurd rfl (h inner)
  | object members =>
    rcases members_cases members with rfl | ⟨index, rfl⟩ | hshape
    · rfl
    · cases index <;> rfl
    · rw [convertWithin_shape b hshape, convertWithin_shape c hshape]
  | _ => rw [convertWithin, convertWithin]

/-! ### Choices and references -/

theorem allLiterals?_eq_some {types : List TypeExpr} {literals : List Literal} :
    allLiterals? types = some literals ↔ types = literals.map .literal := by
  induction types generalizing literals with
  | nil => cases literals <;> simp [allLiterals?]
  | cons t types ih =>
    unfold allLiterals? at ih ⊢
    cases t with
    | literal value =>
      cases literals with
      | nil => simp [TypeExpr.literal?, Option.bind_eq_some_iff]
      | cons l literals => simpa [TypeExpr.literal?, Option.bind_eq_some_iff, ih] using and_comm
    | _ => cases literals <;> simp [TypeExpr.literal?]

theorem allLiterals?_map {f : TypeExpr → TypeExpr} {types : List TypeExpr}
    (h : ∀ t ∈ types, (f t).literal? = t.literal?) :
    allLiterals? (types.map f) = allLiterals? types := by
  unfold allLiterals?
  induction types with
  | nil => rfl
  | cons t types ih =>
    rw [List.forall_mem_cons] at h
    rw [List.map_cons, List.mapM_cons, List.mapM_cons, h.1, ih h.2]

theorem allLiterals?_eq_none {types : List TypeExpr} {type : TypeExpr} (h : type ∈ types)
    (hliteral : type.literal? = none) : allLiterals? types = none := by
  cases hall : allLiterals? types with
  | none => rfl
  | some literals =>
    rw [allLiterals?_eq_some.mp hall] at h
    obtain ⟨value, -, rfl⟩ := List.mem_map.mp h
    cases hliteral

/-- A choice is made among literal values, or among at least one validator. -/
theorem choice_cases {types : List TypeExpr} {validators : List Validator} {v : Validator}
    (h : choice types validators = some v) :
    (∃ literals, literals ≠ [] ∧ types = literals.map .literal ∧
      v = .callArray "oneOf" (literals.map .literal)) ∨
    (validators ≠ [] ∧ v = .callArray "oneOfType" (validators.map .validator)) := by
  unfold choice at h
  split at h
  · cases h
  · next literals hne hall =>
    cases h
    exact .inl ⟨literals, fun heq => hne heq, allLiterals?_eq_some.mp hall, rfl⟩
  · split at h
    · cases h
    · next hne =>
      cases h
      exact .inr ⟨by simpa using hne, rfl⟩

theorem convertTypes_literals (literals : List Literal) :
    (convertTypes setting (literals.map .literal)).value = [] := by
  rw [convertTypes_value, List.filterMap_map]
  exact List.filterMap_eq_nil_iff.mpr fun value _ => rfl

/-- Nothing to choose from means that no type has a validator. -/
theorem convertTypes_of_choice_eq_none {types : List TypeExpr}
    (h : choice types (convertTypes setting types).value = none) :
    (convertTypes setting types).value = [] := by
  unfold choice at h
  split at h
  · next hall =>
    rw [allLiterals?_eq_some.mp hall]
    exact convertTypes_literals []
  · cases h
  · split at h
    · next hempty => simpa using hempty
    · cases h

theorem exists_rule_of_reference {name importName : Text} {v : Validator}
    (h : validatorOfReference name importName = some v) :
    ∃ rule ∈ ReferenceRule.all, v = rule.validator := by
  simp only [validatorOfReference, Option.map_eq_some_iff] at h
  obtain ⟨rule, hrule, rfl⟩ := h
  exact ⟨rule, List.mem_of_find?_eq_some hrule, rfl⟩

/-! ### Properties -/

theorem convertProperty_value (p : Property) :
    (convertProperty setting p).value =
      (p.type.bind fun t => (convert setting t).value).map
        fun v => .mk p.key (v.require p.optional) := by
  obtain ⟨key, type, optional⟩ := p
  cases type with
  | none => rfl
  | some t =>
    simp only [convertProperty, Traced.value_bind, Property.type, convert, Option.bind_some]
    cases (convertWithin setting false t).value <;> rfl

theorem convertProperty_value_eq {t u : TypeExpr}
    (h : (convert setting t).value = (convert setting u).value) (key : PropertyKey)
    (optional : Option Bool) :
    (convertProperty setting (.mk key (some t) optional)).value =
      (convertProperty setting (.mk key (some u) optional)).value := by
  rw [convertProperty_value, convertProperty_value]
  simp only [Property.type, Option.bind_some, h]
  rfl

/-! ### Induction -/

/-- Induction along conversion: what holds of a type if it holds of the types that are converted
for it. The types beneath two layers of parentheses, the arguments of references and the members
of a shape that are not properties are not among them. -/
@[elab_as_elim]
theorem TypeExpr.convertedRec {motive : Bool → TypeExpr → Prop}
    (string : ∀ b, motive b .string)
    (number : ∀ b, motive b .number)
    (boolean : ∀ b, motive b .boolean)
    (symbol : ∀ b, motive b .symbol)
    (function : ∀ b, motive b .function)
    (reference : ∀ b name arguments, motive b (.reference name arguments))
    (array : ∀ b element, motive false element → motive b (.array element))
    (literal : ∀ b value, motive b (.literal value))
    (empty : ∀ b, motive b (.object []))
    (index : ∀ b, motive b (.object [.index none]))
    (indexed : ∀ b type, motive false type → motive b (.object [.index (some type)]))
    (shape : ∀ b members, IsShape members →
      (∀ p ∈ propertiesOf members, ∀ type, p.type = some type → motive false type) →
        motive b (.object members))
    (union : ∀ b types, (∀ t ∈ types, motive false t) → motive b (.union types))
    (intersection : ∀ b types, (∀ t ∈ types, motive false t) → motive b (.intersection types))
    (nested : ∀ inner, motive true (.parenthesized inner))
    (parenthesized : ∀ inner, motive true inner → motive false (.parenthesized inner))
    (other : ∀ b description, motive b (.other description))
    (inParentheses : Bool) (type : TypeExpr) : motive inParentheses type := by
  refine convertWithin.induct motive (fun types => ∀ t ∈ types, motive false t)
    (fun members => ∀ p ∈ propertiesOf members, ∀ type, p.type = some type → motive false type)
    (fun p => ∀ type, p.type = some type → motive false type)
    string number boolean symbol function reference array literal empty index indexed
    ?_ union intersection nested ?_ other ?_ ?_ ?_ ?_ ?_ ?_ ?_ inParentheses type
  -- What is left are shapes, parentheses, and the steps over properties and lists.
  · intro b members hempty hindex hindexed ih
    refine shape b members ⟨hempty, ?_⟩ ih
    intro t h
    cases t with
    | none => exact hindex h
    | some t => exact hindexed t h
  · intro b inner hb ih
    simp only [Bool.not_eq_true] at hb
    exact hb ▸ parenthesized inner ih
  · simp [Property.type]
  · intro key type optional ih t ht
    cases ht
    exact ih
  · simp
  · intro type types iht ihtypes
    simpa using ⟨iht, ihtypes⟩
  · simp
  · intro p members ihp ihmembers
    simpa using ⟨ihp, ihmembers⟩
  · intro member members hmember ih
    cases member with
    | property p => exact absurd rfl (hmember p)
    | index type => exact ih
    | method key => exact ih

end PropValidators
