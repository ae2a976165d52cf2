import PropValidators.Proofs.Conversion.Partition
/-!
Accounts of conversion: every property signature that it visits, at whatever depth, gives one entry
or one record of having been skipped, in the order of the visits.
-/
namespace PropValidators

/-! ### What conversion visits -/

/-- What conversion comes by on its way through a type. -/
inductive Visit where
  | reference (name : EntityName)
  | property (signature : Property)

def Visit.property? : Visit → Option Property
  | property p => some p
  | reference _ => none

mutual

/-- The visits of conversion to a type in order: through the elements of arrays, the members of
unions and intersections, the type of a sole index signature, the properties of every other object
type and one layer of parentheses. A property is visited before its type. -/
def TypeExpr.visits (inParentheses : Bool) : TypeExpr → List Visit
  | .reference name _ => [.reference name]
  | .array element => element.visits false
  | .object [] | .object [.index none] => []
  | .object [.index (some type)] => type.visits false
  | .object members => Member.listVisits members
  | .union types | .intersection types => TypeExpr.listVisits types
  | .parenthesized inner => if inParentheses then [] else inner.visits true
  | .string | .number | .boolean | .symbol | .function | .literal _ | .other _ => []

def TypeExpr.listVisits : List TypeExpr → List Visit
  | [] => []
  | type :: types => type.visits false ++ TypeExpr.listVisits types

def Member.listVisits : List Member → List Visit
  | [] => []
  | .property p :: members => p.visits ++ Member.listVisits members
  | _ :: members => Member.listVisits members

def Property.visits : Property → List Visit
  | .mk key none optional => [.property (.mk key none optional)]
  | .mk key (some type) optional => .property (.mk key (some type) optional) :: type.visits false

end

/-- The property signatures that conversion visits in a type. -/
def TypeExpr.signatures (inParentheses : Bool) (type : TypeExpr) : List Property :=
  (type.visits inParentheses).filterMap Visit.property?

/-- The property signatures beneath a property, those that conversion visits in its type. -/
def Property.nested (p : Property) : List Property :=
  p.type.elim [] (TypeExpr.signatures false)

def Property.signatures (p : Property) : List Property := p :: p.nested

theorem Property.signatures_eq (p : Property) :
    p.signatures = p.visits.filterMap Visit.property? := by
  obtain ⟨key, type, optional⟩ := p
  cases type <;> simp [signatures, nested, visits, Property.type, TypeExpr.signatures,
    Visit.property?]

theorem TypeExpr.listVisits_eq (types : List TypeExpr) :
    TypeExpr.listVisits types = types.flatMap (TypeExpr.visits false) := by
  induction types with
  | nil => rfl
  | cons type types ih => simp [listVisits, ih]

theorem Member.listVisits_eq (members : List Member) :
    Member.listVisits members = (propertiesOf members).flatMap Property.visits := by
  induction members with
  | nil => rfl
  | cons member members ih => cases member <;> simp [listVisits, ih]

theorem TypeExpr.visits_union (b : Bool) (types : List TypeExpr) :
    (TypeExpr.union types).visits b = types.flatMap (TypeExpr.visits false) := listVisits_eq types

theorem TypeExpr.signatures_union (b : Bool) (types : List TypeExpr) :
    (TypeExpr.union types).signatures b = types.flatMap (TypeExpr.signatures false) := by
  rw [signatures, visits_union, List.filterMap_flatMap]
  rfl

theorem TypeExpr.visits_shape {members : List Member} (h : IsShape members) (b : Bool) :
    (TypeExpr.object members).visits b = (propertiesOf members).flatMap Property.visits := by
  rw [← Member.listVisits_eq, visits]
  · exact h.1
  · exact h.2 none
  · exact fun type => h.2 (some type)

/-- Beside other members one that is no property is not visited. -/
theorem TypeExpr.visits_beside {before after : List Member} (hne : before ≠ [] ∨ after ≠ [])
    {member member' : Member} (h : member.property? = none) (h' : member'.property? = none)
    {b : Bool} : (TypeExpr.object (before ++ member :: after)).visits b =
      (TypeExpr.object (before ++ member' :: after)).visits b := by
  rw [visits_shape (isShape_append (.inr hne)), visits_shape (isShape_append (.inr hne)),
    propertiesOf_insert_other h, propertiesOf_insert_other h']

theorem TypeExpr.signatures_shape {members : List Member} (h : IsShape members) (b : Bool) :
    (TypeExpr.object members).signatures b =
      (propertiesOf members).flatMap Property.signatures := by
  rw [signatures, visits_shape h, List.filterMap_flatMap]
  congr 1
  funext p
  exact (Property.signatures_eq p).symm

/-! ### What a validator holds -/

mutual

/-- The entries of all shapes in a validator, each before those in its own validator. -/
def Validator.entries : Validator → List Assignment
  | .member _ => []
  | .call _ arguments => Argument.listEntries arguments
  | .required v => v.entries

def Argument.listEntries : List Argument → List Assignment
  | [] => []
  | .validator v :: arguments => v.entries ++ Argument.listEntries arguments
  | .array elements :: arguments => Element.listEntries elements ++ Argument.listEntries arguments
  | .object properties :: arguments =>
    Assignment.listEntries properties ++ Argument.listEntries arguments

def Element.listEntries : List Element → List Assignment
  | [] => []
  | .validator v :: elements => v.entries ++ Element.listEntries elements
  | .literal _ :: elements => Element.listEntries elements

/-- Entries and those in their validators, each before those in its own. -/
def Assignment.listEntries : List Assignment → List Assignment
  | [] => []
  | .mk key value :: assignments =>
    .mk key value :: (value.entries ++ Assignment.listEntries assignments)

end

def Assignment.entries (a : Assignment) : List Assignment := a :: a.value.entries

theorem Assignment.listEntries_eq (assignments : List Assignment) :
    Assignment.listEntries assignments = assignments.flatMap Assignment.entries := by
  induction assignments with
  | nil => rfl
  | cons a assignments ih =>
    obtain ⟨key, value⟩ := a
    simp [listEntries, entries, Assignment.value, ih]

@[simp] theorem Element.listEntries_literals (literals : List Literal) :
    Element.listEntries (literals.map .literal) = [] := by
  induction literals with
  | nil => rfl
  | cons value literals ih => simp [Element.listEntries, ih]

@[simp] theorem Element.listEntries_validators (validators : List Validator) :
    Element.listEntries (validators.map .validator) = validators.flatMap Validator.entries := by
  induction validators with
  | nil => rfl
  | cons v validators ih => simp [Element.listEntries, ih]

@[simp] theorem Validator.entries_require (v : Validator) (optional : Option Bool) :
    (v.require optional).entries = v.entries := by
  unfold require
  split <;> rfl

theorem entries_validatorOfReference {name importName : Text} {v : Validator}
    (h : validatorOfReference name importName = some v) : v.entries = [] := by
  obtain ⟨rule, hrule, rfl⟩ := exists_rule_of_reference h
  have hall : ∀ rule ∈ ReferenceRule.all, rule.validator.entries = [] := by decide
  exact hall rule hrule

/-! ### Accounts -/

/-- The entry of a property, none if it does not convert. -/
def Property.assignment? (setting : Setting) (p : Property) : Option Assignment :=
  (convertProperty setting p).value

/-- The record of a property that has no entry. -/
def Property.skip? (setting : Setting) (p : Property) : Option Skip :=
  match p.type with
  | none => some (.unannotated p.name)
  | some type =>
    if (convert setting type).value.isSome then none else some (.unsupported p.name type.kind)

/-- Entries and records account for visited signatures: in order, each that converts has its entry
and each other one its record. -/
structure Accounts (setting : Setting) (visited : List Property) (entries : List Assignment)
    (skips : List Skip) : Prop where
  entries_eq : entries = visited.filterMap (Property.assignment? setting)
  skips_eq : skips = visited.filterMap (Property.skip? setting)

namespace Accounts

variable {setting : Setting}

theorem nil : Accounts setting [] [] [] := ⟨rfl, rfl⟩

theorem append {visited₁ visited₂ : List Property} {entries₁ entries₂ : List Assignment}
    {skips₁ skips₂ : List Skip} (h₁ : Accounts setting visited₁ entries₁ skips₁)
    (h₂ : Accounts setting visited₂ entries₂ skips₂) :
    Accounts setting (visited₁ ++ visited₂) (entries₁ ++ entries₂) (skips₁ ++ skips₂) where
  entries_eq := by rw [h₁.entries_eq, h₂.entries_eq, List.filterMap_append]
  skips_eq := by rw [h₁.skips_eq, h₂.skips_eq, List.filterMap_append]

theorem flatMap {α : Type} {xs : List α} {visited : α → List Property}
    {entries : α → List Assignment} {skips : α → List Skip}
    (h : ∀ x ∈ xs, Accounts setting (visited x) (entries x) (skips x)) :
    Accounts setting (xs.flatMap visited) (xs.flatMap entries) (xs.flatMap skips) := by
  induction xs with
  | nil => exact nil
  | cons x xs ih =>
    rw [List.forall_mem_cons] at h
    exact h.1.append (ih h.2)

end Accounts

/-- The account of a type: what conversion of it gives accounts for the signatures it visits, and
it visits none if it gives nothing. -/
structure TypeAccount (setting : Setting) (inParentheses : Bool) (type : TypeExpr) : Prop where
  accounts : Accounts setting (type.signatures inParentheses)
    ((convertWithin setting inParentheses type).value.elim [] Validator.entries)
    (convertWithin setting inParentheses type).skips
  signatures_eq_nil : (convertWithin setting inParentheses type).value = none →
    type.signatures inParentheses = []

variable {setting : Setting}

/-- A property accounts for itself and the signatures beneath it if its type does for those. -/
theorem accounts_convertProperty {p : Property}
    (h : ∀ type, p.type = some type → TypeAccount setting false type) :
    Accounts setting p.signatures ((convertProperty setting p).value.elim [] Assignment.entries)
      (convertProperty setting p).skips := by
  obtain ⟨key, type, optional⟩ := p
  cases type with
  | none => exact ⟨rfl, rfl⟩
  | some type =>
    obtain ⟨⟨hentries, hskips⟩, hnil⟩ := h type rfl
    cases hvalue : (convertWithin setting false type).value with
    | none =>
      -- A type that gives nothing visits nothing, so the record of the property is the only one.
      rw [hnil hvalue] at hskips
      constructor
      · simp [Property.signatures, Property.nested, Property.type, hnil hvalue, convertProperty,
          hvalue, Property.assignment?]
      · simp [Property.signatures, Property.nested, Property.type, hnil hvalue, convertProperty,
          hvalue, hskips, Property.skip?, convert, Property.name, Property.key]
    | some v =>
      rw [hvalue, Option.elim_some] at hentries
      constructor
      · simp [Property.signatures, Property.nested, Property.type, convertProperty, hvalue,
          Property.assignment?, Assignment.entries, Assignment.value, hentries]
      · simp [Property.signatures, Property.nested, Property.type, convertProperty, hvalue,
          Property.skip?, convert, hskips]

theorem flatMap_filterMap {α β γ : Type} (f : α → Option β) (g : β → List γ) (xs : List α) :
    (xs.filterMap f).flatMap g = xs.flatMap fun x => (f x).elim [] g := by
  induction xs with
  | nil => rfl
  | cons x xs ih => cases h : f x <;> simp [h, ih]

theorem accounts_convertProperties {properties : List Property}
    (h : ∀ p ∈ properties, ∀ type, p.type = some type → TypeAccount setting false type) :
    Accounts setting (properties.flatMap Property.signatures)
      (Assignment.listEntries (convertProperties setting properties).value)
      (convertProperties setting properties).skips := by
  have hentries : (convertProperties setting properties).value.flatMap Assignment.entries =
      properties.flatMap fun p => (convertProperty setting p).value.elim [] Assignment.entries := by
    rw [convertProperties_value, flatMap_filterMap]
  rw [Assignment.listEntries_eq, hentries, convertProperties_skips]
  exact Accounts.flatMap fun p hp => accounts_convertProperty (h p hp)

theorem entries_choice (types : List TypeExpr) :
    (choice types (convertTypes setting types).value).elim [] Validator.entries =
      (convertTypes setting types).value.flatMap Validator.entries := by
  cases h : choice types (convertTypes setting types).value with
  | none => simp [convertTypes_of_choice_eq_none h]
  | some v =>
    rcases choice_cases h with ⟨literals, -, rfl, rfl⟩ | ⟨-, rfl⟩
    -- Only the values of literal types are kept, but they have no validators to lose.
    · simp [convertTypes_literals, Validator.callArray, Validator.entries, Argument.listEntries]
    · simp [Validator.callArray, Validator.entries, Argument.listEntries]

/-- Types that a choice is made among account for the signatures they visit. -/
theorem accounts_choice {types : List TypeExpr} (h : ∀ t ∈ types, TypeAccount setting false t) :
    Accounts setting (types.flatMap (TypeExpr.signatures false))
      ((choice types (convertTypes setting types).value).elim [] Validator.entries)
      (convertTypes setting types).skips := by
  rw [entries_choice, convertTypes_value, flatMap_filterMap, convertTypes_skips]
  exact Accounts.flatMap fun t ht => (h t ht).accounts

theorem signatures_of_choice_eq_none {types : List TypeExpr}
    (h : ∀ t ∈ types, TypeAccount setting false t)
    (hnone : choice types (convertTypes setting types).value = none) :
    types.flatMap (TypeExpr.signatures false) = [] := by
  have hvalues := convertTypes_of_choice_eq_none hnone
  rw [convertTypes_value, List.filterMap_eq_nil_iff] at hvalues
  exact List.flatMap_eq_nil_iff.mpr fun t ht => (h t ht).signatures_eq_nil (hvalues t ht)

theorem typeAccount_union (b : Bool) {types : List TypeExpr}
    (h : ∀ t ∈ types, TypeAccount setting false t) : TypeAccount setting b (.union types) := by
  constructor
  · rw [TypeExpr.signatures_union, convertWithin_union_skips]
    exact accounts_choice h
  · rw [TypeExpr.signatures_union]
    exact signatures_of_choice_eq_none h

theorem typeAccount (inParentheses : Bool) (type : TypeExpr) :
    TypeAccount setting inParentheses type := by
  induction inParentheses, type using TypeExpr.convertedRec with
  | string | number | boolean | symbol | function | empty =>
    exact ⟨Accounts.nil, fun _ => rfl⟩
  | literal | index | nested | other => exact ⟨Accounts.nil, fun _ => rfl⟩
  | reference b name arguments =>
    refine ⟨?_, fun _ => rfl⟩
    have hentries : (validatorOfReference (setting.resolve name) setting.importName).elim []
        Validator.entries = [] := by
      cases h : validatorOfReference (setting.resolve name) setting.importName with
      | none => rfl
      | some v => exact entries_validatorOfReference h
    simp only [convertWithin, Traced.value_bind, Traced.value_pure, hentries]
    exact Accounts.nil
  | array b element ih =>
    have hentries : (convertWithin setting b (.array element)).value.elim [] Validator.entries =
        (convertWithin setting false element).value.elim [] Validator.entries := by
      rw [convertWithin_array_value]
      cases h : (convert setting element).value <;>
        simp_all [convert, Validator.callOne, Validator.entries, Argument.listEntries]
    refine ⟨?_, ?_⟩
    · rw [hentries, convertWithin_array_skips]
      exact ih.accounts
    · simp [convertWithin_array_value]
  | indexed b type ih =>
    have hentries :
        ((convertWithin setting false type).value.map (.callOne "objectOf")).elim []
            Validator.entries =
          (convertWithin setting false type).value.elim [] Validator.entries := by
      cases (convertWithin setting false type).value <;>
        simp [Validator.callOne, Validator.entries, Argument.listEntries]
    refine ⟨?_, fun h => ?_⟩
    · rw [convertWithin_indexed_value, convertWithin_indexed_skips, convert, hentries]
      exact ih.accounts
    · rw [convertWithin_indexed_value, Option.map_eq_none_iff] at h
      exact ih.signatures_eq_nil h
  | shape b members hshape ih =>
    refine ⟨?_, fun h => ?_⟩
    · rw [convertWithin_shape_value b hshape, convertWithin_shape_skips b hshape,
        TypeExpr.signatures_shape hshape]
      simpa [Validator.entries, Argument.listEntries] using accounts_convertProperties ih
    · simp [convertWithin_shape_value b hshape] at h
  | union b types ih => exact typeAccount_union b ih
  | intersection b types ih =>
    have hunion := typeAccount_union b ih
    exact ⟨hunion.accounts, hunion.signatures_eq_nil⟩
  | parenthesized inner ih => exact ⟨ih.accounts, ih.signatures_eq_nil⟩

/-! ### Selections -/

/-- The property signatures that conversion of a selection visits, at every depth. -/
def visitedSignatures (groups : Groups) (names : List Text) : List Property :=
  (selectedProperties groups names).flatMap Property.signatures

/-- The visited signatures that stand in the type of another one. -/
def nestedSignatures (groups : Groups) (names : List Text) : List Property :=
  (selectedProperties groups names).flatMap Property.nested

theorem convertSelection_value_selected (groups : Groups) (names : List Text) :
    (convertSelection setting groups names).value =
      (convertProperties setting (selectedProperties groups names)).value := by
  induction names with
  | nil => rfl
  | cons name names ih =>
    rw [convertProperties_value] at ih
    rw [convertSelection, convertProperties_value, selectedProperties, List.flatMap_cons,
      List.filterMap_append]
    cases h : groups.lookup name with
    | none => exact ih
    | some properties =>
      simp only [Traced.value_bind, Traced.value_pure, ih, convertProperties_value]
      rfl

theorem convertSelection_skips_selected {groups : Groups} {names : List Text}
    (hdeclared : ∀ name ∈ names, ∃ properties, groups.lookup name = some properties) :
    (convertSelection setting groups names).skips =
      (convertProperties setting (selectedProperties groups names)).skips := by
  induction names with
  | nil => rfl
  | cons name names ih =>
    rw [List.forall_mem_cons] at hdeclared
    obtain ⟨⟨properties, h⟩, hnames⟩ := hdeclared
    rw [convertProperties_skips] at ih
    rw [convertSelection, convertProperties_skips, selectedProperties, List.flatMap_cons,
      List.flatMap_append, h]
    simp only [Traced.skips_bind, Traced.skips_pure, List.append_nil, ih hnames,
      convertProperties_skips]
    rfl

theorem accounts_convertSelection {groups : Groups} {names : List Text}
    (hdeclared : ∀ name ∈ names, ∃ properties, groups.lookup name = some properties) :
    Accounts setting (visitedSignatures groups names)
      (Assignment.listEntries (convertSelection setting groups names).value)
      (convertSelection setting groups names).skips := by
  rw [convertSelection_value_selected, convertSelection_skips_selected hdeclared]
  exact accounts_convertProperties fun p _ type _ => typeAccount false type

/-! ### Selections without omissions -/

theorem Property.isSome_assignment? {p : Property} :
    (p.assignment? setting).isSome = true ↔ p.Converts setting := by
  rw [assignment?, convertProperty_value, Option.isSome_map]
  cases h : p.type with
  | none => simp [Converts, h]
  | some type => simp [Converts, h, Option.isSome_iff_exists]

theorem Property.skip?_eq_none {p : Property} : p.skip? setting = none ↔ p.Converts setting := by
  unfold skip?
  cases h : p.type with
  | none => simp [Converts, h]
  | some type => simp [Converts, h, Option.isSome_iff_exists]

theorem Property.key_assignment {p : Property} {a : Assignment}
    (h : p.assignment? setting = some a) : a.key = p.key := by
  rw [assignment?, convertProperty_value, Option.map_eq_some_iff] at h
  obtain ⟨v, -, rfl⟩ := h
  rfl

theorem keys_eq_iff (properties : List Property) :
    (properties.filterMap (Property.assignment? setting)).map Assignment.key =
      properties.map Property.key ↔ ∀ p ∈ properties, p.Converts setting := by
  constructor
  · intro h p hp
    have hlength := congrArg List.length h
    rw [List.length_map, List.length_map, List.filterMap_length_eq_length] at hlength
    exact Property.isSome_assignment?.mp (hlength p hp)
  · intro h
    induction properties with
    | nil => rfl
    | cons p properties ih =>
      rw [List.forall_mem_cons, ← Property.isSome_assignment?, Option.isSome_iff_exists] at h
      obtain ⟨⟨a, ha⟩, hproperties⟩ := h
      rw [List.filterMap_cons_some ha, List.map_cons, List.map_cons, ih hproperties,
        Property.key_assignment ha]

theorem mem_selectedProperties {groups : Groups} {names : List Text} {p : Property} :
    p ∈ selectedProperties groups names ↔
      ∃ name ∈ names, ∃ properties, groups.lookup name = some properties ∧ p ∈ properties := by
  unfold selectedProperties
  simp only [List.mem_flatMap]
  refine exists_congr fun name => and_congr_right fun _ => ?_
  cases groups.lookup name <;> simp

theorem skips_of_converts {properties : List Property}
    (h : ∀ p ∈ properties, p.Converts setting) :
    (properties.flatMap Property.signatures).filterMap (Property.skip? setting) =
      (properties.flatMap Property.nested).filterMap (Property.skip? setting) := by
  induction properties with
  | nil => rfl
  | cons p properties ih =>
    rw [List.forall_mem_cons, ← Property.skip?_eq_none] at h
    rw [List.flatMap_cons, List.flatMap_cons, List.filterMap_append, List.filterMap_append,
      ih h.2, Property.signatures, List.filterMap_cons_none h.1]

/-- Without an omission every selected name is declared and every selected property has an entry,
but properties beneath those can have none. At every depth, the entries are those of the visited
signatures that convert, in order. The records are those of the other ones, all of them nested, so
that there is none if and only if nothing is dropped at any depth. -/
theorem drops_only_nested_without_omission (setting : Setting) (groups : Groups)
    (names : List Text) (h : (findOmissions setting groups names).value = []) :
    let props := (convertSelection setting groups names).value
    let skips := (convertSelection setting groups names).skips
    (∀ name ∈ names, ∃ properties, groups.lookup name = some properties) ∧
    props.map Assignment.key = (selectedProperties groups names).map Property.key ∧
    Assignment.listEntries props =
      (visitedSignatures groups names).filterMap (Property.assignment? setting) ∧
    skips = (nestedSignatures groups names).filterMap (Property.skip? setting) ∧
    (skips = [] ↔ (Assignment.listEntries props).map Assignment.key =
      (visitedSignatures groups names).map Property.key) := by
  intro props skips
  rw [findOmissions_eq_nil] at h
  have hdeclared : ∀ name ∈ names, ∃ properties, groups.lookup name = some properties := by
    intro name hname
    obtain ⟨properties, hlookup, -⟩ := h name hname
    exact ⟨properties, hlookup⟩
  have hselected : ∀ p ∈ selectedProperties groups names, p.Converts setting := by
    intro p hp
    obtain ⟨name, hname, properties, hlookup, hp⟩ := mem_selectedProperties.mp hp
    obtain ⟨properties', hlookup', hproperties⟩ := h name hname
    cases hlookup.symm.trans hlookup'
    exact hproperties p hp
  have haccounts : Accounts setting _ (Assignment.listEntries props) skips :=
    accounts_convertSelection hdeclared
  refine ⟨hdeclared, ?_, haccounts.entries_eq, ?_, ?_⟩
  · have hprops : props =
        (selectedProperties groups names).filterMap (Property.assignment? setting) :=
      (convertSelection_value_selected groups names).trans (convertProperties_value _)
    rw [hprops]
    exact (keys_eq_iff _).mpr hselected
  · rw [haccounts.skips_eq]
    exact skips_of_converts hselected
  · rw [haccounts.entries_eq, haccounts.skips_eq, keys_eq_iff, List.filterMap_eq_nil_iff]
    simp only [Property.skip?_eq_none]

/-- A shape whose properties are all declared but do not all convert: there is no omission, and the
records are those of its properties. -/
theorem drops_only_nested_from_shape :
    let setting : Setting := ⟨defaultImportName, EntityName.flatten⟩
    let inner : List Member :=
      [.property (.mk (.identifier "q") (some .string) none),
       .property (.mk (.identifier "r") (some (.other "any")) none)]
    let groups : Groups := [("Props", [.mk (.identifier "p") (some (.object inner)) none])]
    (findOmissions setting groups ["Props"]).value = [] ∧
      (convertSelection setting groups ["Props"]).skips =
        (nestedSignatures groups ["Props"]).filterMap (Property.skip? setting) :=
  ⟨rfl, (drops_only_nested_without_omission _ _ _ rfl).2.2.2.1⟩

/-- A property of an object type that has no annotation is dropped, and recorded, although the
search for omissions finds nothing. -/
theorem nested_property_dropped_without_omission :
    let setting : Setting := ⟨defaultImportName, EntityName.flatten⟩
    let inner : Property := .mk (.identifier "inner") none none
    let groups : Groups :=
      [("Props", [.mk (.identifier "p") (some (.object [.property inner])) none])]
    let props := (convertSelection setting groups ["Props"]).value
    (findOmissions setting groups ["Props"]).value = [] ∧
      (convertSelection setting groups ["Props"]).skips = [.unannotated "inner"] ∧
      inner ∈ visitedSignatures groups ["Props"] ∧
      ∀ a ∈ Assignment.listEntries props, a.key ≠ inner.key := by
  refine ⟨rfl, rfl, ?_, ?_⟩
  · exact List.mem_cons_of_mem _ List.mem_cons_self
  · decide

end PropValidators
