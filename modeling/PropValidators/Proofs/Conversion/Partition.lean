import PropValidators.Omission
import PropValidators.Proofs.Conversion.Walk
/-!
Entries and omissions split a selection between them: the two are read off one walk over the
selected groups, each stop of which gives an entry or an omission.
-/
namespace PropValidators

/-- A stop of a walk over selected groups: a name that is not declared, or a property of a group. -/
inductive Stop where
  | undeclared (group : Text)
  | property (group : Text) (signature : Property)

/-- The stops for selected names in order, those of a group in the order of its properties. -/
def walk (groups : Groups) (names : List Text) : List Stop :=
  names.flatMap fun name =>
    match groups.lookup name with
    | some properties => properties.map (.property name)
    | none => [.undeclared name]

/-- The properties of the selected groups that are declared, in order and as often as selected. -/
def selectedProperties (groups : Groups) (names : List Text) : List Property :=
  names.flatMap fun name => (groups.lookup name).getD []

/-- What a stop gives: an entry with the key of its property, or an omission. -/
def Stop.fate (setting : Setting) : Stop → Assignment ⊕ Omission
  | undeclared group => .inr ⟨group, none, .undeclared⟩
  | property group (.mk key none _) => .inr ⟨group, some key.name, .unannotated⟩
  | property group (.mk key (some type) optional) =>
    match (convert setting type).value with
    | some v => .inl (.mk key (v.require optional))
    | none => .inr ⟨group, some key.name, .unsupported type.kind⟩

/-- A property converts if it has a type that does. -/
def Property.Converts (setting : Setting) (p : Property) : Prop :=
  ∃ type v, p.type = some type ∧ (convert setting type).value = some v

variable {setting : Setting}

theorem omissionOf_value_fate (group : Text) (p : Property) :
    (omissionOf setting group p).value = ((Stop.property group p).fate setting).getRight? := by
  obtain ⟨key, type, optional⟩ := p
  cases type with
  | none => rfl
  | some type =>
    rw [Stop.fate]
    simp only [omissionOf, Property.type, Traced.value_bind]
    cases (convert setting type).value <;> rfl

theorem omissionsOf_value (group : Text) (properties : List Property) :
    (omissionsOf setting group properties).value =
      properties.filterMap fun p => (omissionOf setting group p).value := by
  induction properties with
  | nil => rfl
  | cons p properties ih =>
    simp only [omissionsOf, Traced.value_bind, Traced.value_pure, ih]
    cases h : (omissionOf setting group p).value <;> simp [h]

theorem walk_declared {groups : Groups} {name : Text} {properties : List Property}
    (h : groups.lookup name = some properties) (names : List Text) :
    walk groups (name :: names) = properties.map (.property name) ++ walk groups names := by
  simp [walk, h]

theorem walk_undeclared {groups : Groups} {name : Text} (h : groups.lookup name = none)
    (names : List Text) :
    walk groups (name :: names) = .undeclared name :: walk groups names := by
  simp [walk, h]

theorem findOmissions_value (groups : Groups) (names : List Text) :
    (findOmissions setting groups names).value =
      ((walk groups names).map (Stop.fate setting)).filterMap Sum.getRight? := by
  induction names with
  | nil => rfl
  | cons name names ih =>
    unfold findOmissions
    cases h : groups.lookup name with
    | none =>
      rw [walk_undeclared h]
      simp [Stop.fate, ih]
    | some properties =>
      rw [walk_declared h]
      simp only [Traced.value_bind, Traced.value_pure, ih, omissionsOf_value,
        omissionOf_value_fate, List.map_append, List.filterMap_append, List.filterMap_map]
      rfl

/-! ### Fates of properties -/

/-- Each property is either entered under its own key or reported with the reason why not. -/
theorem Stop.fate_property (setting : Setting) (group : Text) (p : Property) :
    (∃ type v, p.type = some type ∧ (convert setting type).value = some v ∧
      (property group p).fate setting = .inl (.mk p.key (v.require p.optional))) ∨
    (p.type = none ∧
      (property group p).fate setting = .inr ⟨group, some p.name, .unannotated⟩) ∨
    (∃ type, p.type = some type ∧ (convert setting type).value = none ∧
      (property group p).fate setting = .inr ⟨group, some p.name, .unsupported type.kind⟩) := by
  obtain ⟨key, type, optional⟩ := p
  cases type with
  | none => exact .inr (.inl ⟨rfl, rfl⟩)
  | some type =>
    cases h : (convert setting type).value with
    | none => exact .inr (.inr ⟨type, rfl, h, by simp [fate, h, Property.name, Property.key]⟩)
    | some v => exact .inl ⟨type, v, rfl, h, by simp [fate, h, Property.key, Property.optional]⟩

theorem omissionOf_value_eq_none (group : Text) (p : Property) :
    (omissionOf setting group p).value = none ↔ p.Converts setting := by
  rw [omissionOf_value_fate]
  rcases Stop.fate_property setting group p with
    ⟨type, v, htype, hv, hfate⟩ | ⟨htype, hfate⟩ | ⟨type, htype, hv, hfate⟩
  · simp [hfate, Property.Converts, htype, hv]
  · simp [hfate, Property.Converts, htype]
  · simp [hfate, Property.Converts, htype, hv]

/-- Nothing is omitted if and only if every name is declared and every property converts. -/
theorem findOmissions_eq_nil (groups : Groups) (names : List Text) :
    (findOmissions setting groups names).value = [] ↔
      ∀ name ∈ names, ∃ properties, groups.lookup name = some properties ∧
        ∀ p ∈ properties, p.Converts setting := by
  induction names with
  | nil => simp [findOmissions]
  | cons name names ih =>
    rw [List.forall_mem_cons, ← ih, findOmissions]
    cases h : groups.lookup name with
    | none => simp
    | some properties => simp [omissionsOf_value, omissionOf_value_eq_none]

end PropValidators
