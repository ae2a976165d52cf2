import PropValidators.Proofs.Conversion.Lookups
/-!
Parentheses in types: those that are redundant make no difference to the validator of a type or to
the names that are looked up for it, and two layers directly around each other hide what they hold.
-/
namespace PropValidators

mutual

/-- A type with all parentheses in it deleted. -/
def TypeExpr.withoutParentheses : TypeExpr → TypeExpr
  | .reference name arguments => .reference name (TypeExpr.listWithoutParentheses arguments)
  | .array element => .array element.withoutParentheses
  | .object members => .object (Member.listWithoutParentheses members)
  | .union types => .union (TypeExpr.listWithoutParentheses types)
  | .intersection types => .intersection (TypeExpr.listWithoutParentheses types)
  | .parenthesized inner => inner.withoutParentheses
  | .string => .string
  | .number => .number
  | .boolean => .boolean
  | .symbol => .symbol
  | .function => .function
  | .literal value => .literal value
  | .other description => .other description

def TypeExpr.listWithoutParentheses : List TypeExpr → List TypeExpr
  | [] => []
  | type :: types => type.withoutParentheses :: TypeExpr.listWithoutParentheses types

def Member.withoutParentheses : Member → Member
  | .property p => .property p.withoutParentheses
  | .index none => .index none
  | .index (some type) => .index (some type.withoutParentheses)
  | .method key => .method key

def Member.listWithoutParentheses : List Member → List Member
  | [] => []
  | member :: members => member.withoutParentheses :: Member.listWithoutParentheses members

def Property.withoutParentheses : Property → Property
  | .mk key none optional => .mk key none optional
  | .mk key (some type) optional => .mk key (some type.withoutParentheses) optional

end

mutual

/-- All parentheses in a type are redundant: none stand directly around parentheses or a literal,
nor do those around the type itself if it is `inParentheses`. -/
def TypeExpr.redundantlyParenthesized (inParentheses : Bool) : TypeExpr → Bool
  | .reference _ arguments => TypeExpr.listRedundantlyParenthesized arguments
  | .array element => element.redundantlyParenthesized false
  | .object members => Member.listRedundantlyParenthesized members
  | .union types => TypeExpr.listRedundantlyParenthesized types
  | .intersection types => TypeExpr.listRedundantlyParenthesized types
  | .parenthesized inner => !inParentheses && inner.redundantlyParenthesized true
  | .literal _ => !inParentheses
  | .string | .number | .boolean | .symbol | .function | .other _ => true

def TypeExpr.listRedundantlyParenthesized : List TypeExpr → Bool
  | [] => true
  | type :: types =>
    type.redundantlyParenthesized false && TypeExpr.listRedundantlyParenthesized types

def Member.redundantlyParenthesized : Member → Bool
  | .property p => p.redundantlyParenthesized
  | .index none => true
  | .index (some type) => type.redundantlyParenthesized false
  | .method _ => true

def Member.listRedundantlyParenthesized : List Member → Bool
  | [] => true
  | member :: members =>
    member.redundantlyParenthesized && Member.listRedundantlyParenthesized members

def Property.redundantlyParenthesized : Property → Bool
  | .mk _ none _ => true
  | .mk _ (some type) _ => type.redundantlyParenthesized false

end

/-! ### Deleting parentheses in lists, members and properties -/

theorem TypeExpr.listWithoutParentheses_eq (types : List TypeExpr) :
    listWithoutParentheses types = types.map withoutParentheses := by
  induction types with
  | nil => rfl
  | cons type types ih => rw [listWithoutParentheses, ih, List.map_cons]

theorem Member.listWithoutParentheses_eq (members : List Member) :
    listWithoutParentheses members = members.map withoutParentheses := by
  induction members with
  | nil => rfl
  | cons member members ih => rw [listWithoutParentheses, ih, List.map_cons]

@[simp] theorem Property.key_withoutParentheses (p : Property) :
    p.withoutParentheses.key = p.key := by
  obtain ⟨key, type, optional⟩ := p
  cases type <;> rfl

@[simp] theorem Property.type_withoutParentheses (p : Property) :
    p.withoutParentheses.type = p.type.map TypeExpr.withoutParentheses := by
  obtain ⟨key, type, optional⟩ := p
  cases type <;> rfl

@[simp] theorem Property.optional_withoutParentheses (p : Property) :
    p.withoutParentheses.optional = p.optional := by
  obtain ⟨key, type, optional⟩ := p
  cases type <;> rfl

theorem propertiesOf_withoutParentheses (members : List Member) :
    propertiesOf (Member.listWithoutParentheses members) =
      (propertiesOf members).map Property.withoutParentheses := by
  rw [Member.listWithoutParentheses_eq]
  refine propertiesOf_map (fun member => ?_) members
  cases member with
  | index type => cases type <;> rfl
  | _ => rfl

theorem IsShape.withoutParentheses {members : List Member} (h : IsShape members) :
    IsShape (Member.listWithoutParentheses members) := by
  rw [Member.listWithoutParentheses_eq]
  refine h.map fun member type heq => ?_
  cases member with
  | index type => exact ⟨type, rfl⟩
  | _ => cases heq

/-! ### Redundant parentheses in the parts of a type -/

theorem TypeExpr.redundantlyParenthesized_of_mem {types : List TypeExpr}
    (h : listRedundantlyParenthesized types) {t : TypeExpr} (ht : t ∈ types) :
    t.redundantlyParenthesized false := by
  induction types with
  | nil => cases ht
  | cons type types ih =>
    rw [listRedundantlyParenthesized, Bool.and_eq_true] at h
    rcases List.mem_cons.mp ht with rfl | ht
    · exact h.1
    · exact ih h.2 ht

theorem Property.redundantlyParenthesized_type {p : Property} (h : p.redundantlyParenthesized)
    {type : TypeExpr} (htype : p.type = some type) : type.redundantlyParenthesized false := by
  obtain ⟨key, type', optional⟩ := p
  obtain rfl : type' = some type := htype
  exact h

theorem Property.redundantlyParenthesized_of_mem {members : List Member}
    (h : Member.listRedundantlyParenthesized members) {p : Property}
    (hp : p ∈ propertiesOf members) : p.redundantlyParenthesized := by
  induction members with
  | nil => cases hp
  | cons member members ih =>
    rw [Member.listRedundantlyParenthesized, Bool.and_eq_true] at h
    cases member with
    | property q =>
      rcases List.mem_cons.mp hp with rfl | hp
      · exact h.1
      · exact ih h.2 hp
    | index type => exact ih h.2 hp
    | method key => exact ih h.2 hp

/-- No literal comes to light under redundant parentheses, and none gets lost. -/
theorem TypeExpr.literal?_withoutParentheses {type : TypeExpr}
    (h : type.redundantlyParenthesized false) :
    type.withoutParentheses.literal? = type.literal? := by
  cases type with
  | parenthesized inner =>
    -- Redundant parentheses hold no literal, nor other parentheses that might.
    replace h : inner.redundantlyParenthesized true := h
    cases inner with
    | parenthesized inner => cases h
    | literal value => cases h
    | _ => rfl
  | _ => rfl

theorem allLiterals?_withoutParentheses {types : List TypeExpr}
    (h : TypeExpr.listRedundantlyParenthesized types) :
    allLiterals? (TypeExpr.listWithoutParentheses types) = allLiterals? types := by
  rw [TypeExpr.listWithoutParentheses_eq]
  exact allLiterals?_map fun t ht =>
    t.literal?_withoutParentheses (TypeExpr.redundantlyParenthesized_of_mem h ht)

/-! ### Validators and look-ups without parentheses -/

section Conversion

variable {setting : Setting}

theorem convertProperty_withoutParentheses_value {p : Property}
    (h : ∀ type, p.type = some type →
      (convert setting type.withoutParentheses).value = (convert setting type).value) :
    (convertProperty setting p.withoutParentheses).value = (convertProperty setting p).value := by
  rw [convertProperty_value, convertProperty_value]
  cases htype : p.type with
  | none => simp [htype]
  | some type => simp [htype, h type htype]

theorem choice_withoutParentheses {types : List TypeExpr}
    (hredundant : TypeExpr.listRedundantlyParenthesized types)
    (h : ∀ t ∈ types,
      (convert setting t.withoutParentheses).value = (convert setting t).value) :
    choice (TypeExpr.listWithoutParentheses types)
        (convertTypes setting (TypeExpr.listWithoutParentheses types)).value =
      choice types (convertTypes setting types).value := by
  have hvalues : (convertTypes setting (TypeExpr.listWithoutParentheses types)).value =
      (convertTypes setting types).value := by
    rw [TypeExpr.listWithoutParentheses_eq, convertTypes_value, convertTypes_value,
      List.filterMap_map]
    exact List.filterMap_congr h
  rw [choice, choice, allLiterals?_withoutParentheses hredundant, hvalues]

/-- Wherever conversion comes to a type, deleting redundant parentheses keeps its validator. -/
theorem convert_withoutParentheses_value {inParentheses : Bool} {type : TypeExpr}
    (hredundant : type.redundantlyParenthesized inParentheses) :
    (convert setting type.withoutParentheses).value =
      (convertWithin setting inParentheses type).value := by
  induction inParentheses, type using TypeExpr.convertedRec with
  | string | number | boolean | symbol | function | empty => rfl
  | reference | literal | index | other => rfl
  | array b element ih =>
    rw [TypeExpr.withoutParentheses, convert, convertWithin_array_value, convertWithin_array_value,
      ih hredundant, convert]
  | indexed b type ih =>
    have htype : type.redundantlyParenthesized false := (Bool.and_eq_true_iff.mp hredundant).1
    calc
      (convert setting (.object [.index (some type.withoutParentheses)])).value
      _ = (convert setting type.withoutParentheses).value.map (.callOne "objectOf") :=
        convertWithin_indexed_value false type.withoutParentheses
      _ = (convertWithin setting false type).value.map (.callOne "objectOf") := by rw [ih htype]
      _ = (convertWithin setting b (.object [.index (some type)])).value :=
        (convertWithin_indexed_value b type).symm
  | shape b members hshape ih =>
    have hentries : (propertiesOf members).filterMap
          (fun p => (convertProperty setting p.withoutParentheses).value) =
        (propertiesOf members).filterMap fun p => (convertProperty setting p).value := by
      refine List.filterMap_congr fun p hp => ?_
      refine convertProperty_withoutParentheses_value fun type htype => ih p hp type htype ?_
      exact p.redundantlyParenthesized_type (p.redundantlyParenthesized_of_mem hredundant hp) htype
    rw [TypeExpr.withoutParentheses, convert, convertWithin_shape_value b hshape,
      convertWithin_shape_value false hshape.withoutParentheses, convertProperties_value,
      convertProperties_value, propertiesOf_withoutParentheses, List.filterMap_map]
    exact congrArg (fun entries => some (Validator.call "shape" [.object entries])) hentries
  | union b types ih | intersection b types ih =>
    rw [TypeExpr.withoutParentheses, convert, convertWithin, convertWithin]
    refine choice_withoutParentheses hredundant fun t ht => ?_
    exact ih t ht (TypeExpr.redundantlyParenthesized_of_mem hredundant ht)
  | nested inner => cases hredundant
  | parenthesized inner ih => exact ih hredundant

end Conversion

/-- Wherever conversion comes to a type, deleting redundant parentheses keeps what it visits. -/
theorem TypeExpr.references_withoutParentheses {inParentheses : Bool} {type : TypeExpr}
    (hredundant : type.redundantlyParenthesized inParentheses) :
    type.withoutParentheses.references false = type.references inParentheses := by
  induction inParentheses, type using TypeExpr.convertedRec with
  | string | number | boolean | symbol | function | empty => rfl
  | reference | literal | index | other => rfl
  | array b element ih => exact ih hredundant
  | indexed b type ih => exact ih (Bool.and_eq_true_iff.mp hredundant).1
  | shape b members hshape ih =>
    rw [withoutParentheses, references_shape hshape.withoutParentheses, references_shape hshape,
      propertiesOf_withoutParentheses, List.flatMap_map]
    refine List.flatMap_congr fun p hp => ?_
    have hp' : p.redundantlyParenthesized := p.redundantlyParenthesized_of_mem hredundant hp
    rw [Property.references, Property.references, Property.type_withoutParentheses]
    cases htype : p.type with
    | none => rfl
    | some type => exact ih p hp type htype (p.redundantlyParenthesized_type hp' htype)
  | union b types ih | intersection b types ih =>
    rw [withoutParentheses, listWithoutParentheses_eq]
    simp only [references_union, references_intersection, List.flatMap_map]
    exact List.flatMap_congr fun t ht => ih t ht (redundantlyParenthesized_of_mem hredundant ht)
  | nested inner => cases hredundant
  | parenthesized inner ih => exact ih hredundant

/-- As long as no parentheses stand directly around parentheses or a literal, deleting all of them
changes neither the validator of a type nor the names that are looked up. A type in two layers of
parentheses has no validator. -/
theorem redundant_parentheses_are_transparent (setting : Setting) :
    (∀ type : TypeExpr, type.redundantlyParenthesized false →
      (convert setting type.withoutParentheses).value = (convert setting type).value ∧
      (convert setting type.withoutParentheses).lookups = (convert setting type).lookups) ∧
    (∀ type, (convert setting (.parenthesized (.parenthesized type))).value = none) := by
  refine ⟨fun type hredundant => ⟨?_, ?_⟩, fun type => rfl⟩
  · exact convert_withoutParentheses_value hredundant
  · rw [convert, convert, convertWithin_lookups, convertWithin_lookups]
    exact type.references_withoutParentheses hredundant

/-- Parentheses around a choice, a member of it, a list and the type of a property. -/
theorem parentheses_of_choice_are_transparent :
    let node : TypeExpr := .reference (.qualified (.identifier "R") "ReactNode") []
    let ref (argument : TypeExpr) : TypeExpr := .reference (.identifier "Ref") [argument]
    let icon (type : TypeExpr) : Member :=
      .property (.mk (.identifier "icon") (some type) (some true))
    let type : TypeExpr := .parenthesized (.union [.parenthesized .number,
      .array (.parenthesized (ref (.parenthesized .string))), .literal (.string "none"),
      .object [.index none, icon (.parenthesized node)]])
    let bare : TypeExpr := .union [.number, .array (ref .string), .literal (.string "none"),
      .object [.index none, icon node]]
    type.redundantlyParenthesized false ∧ type.withoutParentheses = bare ∧
      (convert ⟨"R", EntityName.flatten⟩ bare).value =
        (convert ⟨"R", EntityName.flatten⟩ type).value ∧
      (convert ⟨"R", EntityName.flatten⟩ bare).lookups =
        (convert ⟨"R", EntityName.flatten⟩ type).lookups := by
  intro node ref icon type bare
  exact ⟨rfl, rfl, (redundant_parentheses_are_transparent _).1 type rfl⟩

end PropValidators
