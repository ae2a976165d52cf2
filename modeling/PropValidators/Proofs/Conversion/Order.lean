import Mathlib.Data.List.Perm.Basic
import PropValidators.Proofs.Conversion.Change
import PropValidators.Proofs.Conversion.Domain
/-!
The order of members. Conversion carries it through to the entries that the members give, and makes
nothing else of it: types with the same members in another order, at any number of places, convert
to validators with the same entries in another order.
-/
namespace PropValidators

open Relation

/-- A validator with a hole in it, in which another validator has its place. -/
inductive ValidatorContext where
  | hole
  | required (inner : ValidatorContext)
  | argument (factory : JoinedText) (inner : ValidatorContext)
  | element (factory : JoinedText) (before : List Element) (inner : ValidatorContext)
    (after : List Element)
  | entry (factory : JoinedText) (before : List Assignment) (key : PropertyKey)
    (inner : ValidatorContext) (after : List Assignment)

/-- The whole validator, with a validator in the place of the hole. -/
def ValidatorContext.fill (v : Validator) : ValidatorContext → Validator
  | hole => v
  | required inner => .required (inner.fill v)
  | argument factory inner => .callOne factory (inner.fill v)
  | element factory before inner after =>
    .callArray factory (before ++ .validator (inner.fill v) :: after)
  | entry factory before key inner after =>
    .call factory [.object (before ++ .mk key (inner.fill v) :: after)]

/-- The context marked as required unless it is optional. -/
def ValidatorContext.require (around : ValidatorContext) (optional : Option Bool) :
    ValidatorContext :=
  if optional = some true then around else required around

theorem ValidatorContext.fill_require (around : ValidatorContext) (optional : Option Bool)
    (v : Validator) : (around.require optional).fill v = (around.fill v).require optional := by
  unfold require Validator.require
  split <;> rfl

/-- Two types with the same members in another order. -/
inductive TypeExpr.Permuted : TypeExpr → TypeExpr → Prop
  | union {before after : List TypeExpr} :
    before.Perm after → Permuted (.union before) (.union after)
  | intersection {before after : List TypeExpr} :
    before.Perm after → Permuted (.intersection before) (.intersection after)
  | object {before after : List Member} :
    before.Perm after → Permuted (.object before) (.object after)

/-- Two validators with the same elements in an array, or properties in an object, in another
order. -/
inductive Validator.Permuted : Validator → Validator → Prop
  | array (factory : JoinedText) {before after : List Element} :
    before.Perm after → Permuted (.callArray factory before) (.callArray factory after)
  | object (factory : JoinedText) {before after : List Assignment} :
    before.Perm after → Permuted (.call factory [.object before]) (.call factory [.object after])

/-- Two validators that are the same but for the order at one place. -/
inductive Validator.PermutedAt : Validator → Validator → Prop
  | intro (around : ValidatorContext) {v w : Validator} :
    v.Permuted w → PermutedAt (around.fill v) (around.fill w)

/-- Two validators that are the same but for the order at any number of places. -/
def Validator.Reordered : Validator → Validator → Prop := ReflTransGen Validator.PermutedAt

/-- What a type gives to the choice that is made among it and others. -/
def TypeExpr.element? (setting : Setting) (type : TypeExpr) : Option Element :=
  (convert setting type).value.map .validator

/-- Two types with the same members in another order and their validators, in which what the members
give stands in the order of the members that give it: their literal values, the validators of those
that have one, or the entries of the properties among them that have one. -/
inductive InOrderOfMembers (setting : Setting) :
    TypeExpr → TypeExpr → Validator → Validator → Prop
  | literals {p q : TypeExpr} {before after : List Literal} :
    p.choices? = some (before.map .literal) → q.choices? = some (after.map .literal) →
      before.Perm after → InOrderOfMembers setting p q
        (.callArray "oneOf" (before.map .literal)) (.callArray "oneOf" (after.map .literal))
  | types {p q : TypeExpr} {before after : List TypeExpr} :
    p.choices? = some before → q.choices? = some after →
      before.Perm after → InOrderOfMembers setting p q
        (.callArray "oneOfType" (before.filterMap (TypeExpr.element? setting)))
        (.callArray "oneOfType" (after.filterMap (TypeExpr.element? setting)))
  | shape {before after : List Member} :
    before.Perm after → InOrderOfMembers setting (.object before) (.object after)
        (.call "shape" [.object ((propertiesOf before).filterMap (Property.assignment? setting))])
        (.call "shape" [.object ((propertiesOf after).filterMap (Property.assignment? setting))])

variable {setting : Setting}

/-! ### Contexts -/

namespace TypeContext

/-- Whatever stands in the hole makes no difference to the validator of the whole. -/
def Conceals (setting : Setting) (b : Bool) (context : TypeContext) : Prop :=
  ∀ t u : TypeExpr, t.literal? = none → u.literal? = none →
    (convertWithin setting b (context.fill t)).value =
      (convertWithin setting b (context.fill u)).value

/-- Whatever has a validator in the hole shows it, in the same place, in that of the whole. -/
def Shows (setting : Setting) (b : Bool) (context : TypeContext) (around : ValidatorContext) :
    Prop :=
  ∃ c, ∀ (t : TypeExpr) (v : Validator), t.literal? = none →
    (convertWithin setting c t).value = some v →
      (convertWithin setting b (context.fill t)).value = some (around.fill v)

variable {b : Bool} {inner : TypeContext} {around : ValidatorContext}

theorem Conceals.array (h : inner.Conceals setting false) :
    (TypeContext.array inner).Conceals setting b := by
  intro t u ht hu
  rw [fill, fill, convertWithin_array_value, convertWithin_array_value, convert, convert,
    h t u ht hu]

theorem Shows.array (h : inner.Shows setting false around) :
    (TypeContext.array inner).Shows setting b (.argument "arrayOf" around) := by
  obtain ⟨c, h⟩ := h
  refine ⟨c, fun t v ht hv => ?_⟩
  rw [fill, convertWithin_array_value, convert, h t v ht hv]
  rfl

theorem Conceals.choice (h : inner.Conceals setting false) (before after : List TypeExpr)
    {t u : TypeExpr} (ht : t.literal? = none) (hu : u.literal? = none) :
    choice (before ++ inner.fill t :: after)
        (convertTypes setting (before ++ inner.fill t :: after)).value =
      choice (before ++ inner.fill u :: after)
        (convertTypes setting (before ++ inner.fill u :: after)).value :=
  choice_eq_of_convert_eq (h t u ht hu) (TypeExpr.literal?_fill ht inner)
    (TypeExpr.literal?_fill hu inner) before after

theorem Shows.choice (h : inner.Shows setting false around) (before after : List TypeExpr) :
    ∃ c, ∀ t v, t.literal? = none → (convertWithin setting c t).value = some v →
      PropValidators.choice (before ++ inner.fill t :: after)
          (convertTypes setting (before ++ inner.fill t :: after)).value =
        some ((ValidatorContext.element "oneOfType"
          (before.filterMap (TypeExpr.element? setting)) around
          (after.filterMap (TypeExpr.element? setting))).fill v) := by
  obtain ⟨c, h⟩ := h
  refine ⟨c, fun t v ht hv => ?_⟩
  have hinner : (convert setting (inner.fill t)).value = some (around.fill v) := h t v ht hv
  have hvalue : (convertTypes setting (before ++ inner.fill t :: after)).value =
      before.filterMap (fun t => (convert setting t).value) ++
        around.fill v :: after.filterMap (fun t => (convert setting t).value) := by
    rw [convertTypes_value, List.filterMap_append, List.filterMap_cons, hinner]
  have helements (types : List TypeExpr) :
      (types.filterMap fun t => (convert setting t).value).map .validator =
        types.filterMap (TypeExpr.element? setting) := List.map_filterMap
  have hmem : around.fill v ∈ (convertTypes setting (before ++ inner.fill t :: after)).value := by
    rw [hvalue]
    exact List.mem_append_right _ List.mem_cons_self
  rw [choice_of_mem hmem, hvalue, List.map_append, List.map_cons, helements, helements]
  rfl

theorem Conceals.property (h : inner.Conceals setting false) (before after : List Member)
    (key : PropertyKey) (optional : Option Bool) :
    (TypeContext.property before key inner optional after).Conceals setting b := by
  intro t u ht hu
  have hinner : (convert setting (inner.fill t)).value = (convert setting (inner.fill u)).value :=
    h t u ht hu
  exact convertWithin_property_eq b (convertProperty_value_eq hinner key optional) before after

theorem Shows.property (h : inner.Shows setting false around) (before after : List Member)
    (key : PropertyKey) (optional : Option Bool) :
    (TypeContext.property before key inner optional after).Shows setting b
      (.entry "shape" ((propertiesOf before).filterMap (Property.assignment? setting)) key
        (around.require optional)
        ((propertiesOf after).filterMap (Property.assignment? setting))) := by
  obtain ⟨c, h⟩ := h
  refine ⟨c, fun t v ht hv => ?_⟩
  have hinner : (convert setting (inner.fill t)).value = some (around.fill v) := h t v ht hv
  have hentry : (convertProperty setting (.mk key (some (inner.fill t)) optional)).value =
      some (.mk key ((around.require optional).fill v)) := by
    rw [convertProperty_value, Property.type, Option.bind_some, hinner, around.fill_require]
    rfl
  rw [fill, convertWithin_shape_value b (isShape_append (.inl ⟨_, rfl⟩)),
    propertiesOf_insert_property, convertProperties_value, List.filterMap_append,
    List.filterMap_cons, hentry]
  rfl

theorem conceals_index {before after : List Member} (h : before ≠ [] ∨ after ≠ [])
    (inner : TypeContext) : (TypeContext.index before inner after).Conceals setting b :=
  fun _ _ _ _ => congrArg Traced.value (convertWithin_beside b h rfl rfl)

theorem Conceals.indexed (h : inner.Conceals setting false) :
    (TypeContext.index [] inner []).Conceals setting b := by
  intro t u ht hu
  rw [fill, fill, List.nil_append, List.nil_append, convertWithin_indexed_value,
    convertWithin_indexed_value, convert, convert, h t u ht hu]

theorem Shows.indexed (h : inner.Shows setting false around) :
    (TypeContext.index [] inner []).Shows setting b (.argument "objectOf" around) := by
  obtain ⟨c, h⟩ := h
  refine ⟨c, fun t v ht hv => ?_⟩
  rw [fill, List.nil_append, convertWithin_indexed_value, convert, h t v ht hv]
  rfl

/-- What stands in a context is concealed by it, or shown at one place. -/
theorem conceals_or_shows (context : TypeContext) (b : Bool) :
    context.Conceals setting b ∨ ∃ around, context.Shows setting b around := by
  induction context generalizing b with
  | hole => exact .inr ⟨.hole, b, fun t v _ hv => hv⟩
  | array inner ih =>
    rcases ih false with h | ⟨around, h⟩
    · exact .inl h.array
    · exact .inr ⟨_, h.array⟩
  | union before inner after ih | intersection before inner after ih =>
    rcases ih false with h | ⟨around, h⟩
    · exact .inl fun t u ht hu => h.choice before after ht hu
    · exact .inr ⟨_, h.choice before after⟩
  | parenthesized inner ih =>
    cases b with
    | true => exact .inl fun t u _ _ => rfl
    | false => exact ih true
  | property before key inner optional after ih =>
    rcases ih false with h | ⟨around, h⟩
    · exact .inl (h.property before after key optional)
    · exact .inr ⟨_, h.property before after key optional⟩
  | index before inner after ih =>
    by_cases hsole : before ≠ [] ∨ after ≠ []
    · exact .inl (conceals_index hsole inner)
    · obtain ⟨rfl, rfl⟩ : before = [] ∧ after = [] := by simpa using hsole
      rcases ih false with h | ⟨around, h⟩
      · exact .inl h.indexed
      · exact .inr ⟨_, h.indexed⟩
  | argument name before inner after ih =>
    refine .inl fun t u _ _ => ?_
    rw [fill, fill, convertWithin, convertWithin]

end TypeContext

/-! ### Members in another order -/

theorem choice_literals {literals : List Literal} (h : literals ≠ [])
    (validators : List Validator) :
    choice (literals.map .literal) validators =
      some (.callArray "oneOf" (literals.map .literal)) := by
  have hall : allLiterals? (literals.map .literal) = some literals := allLiterals?_eq_some.mpr rfl
  obtain ⟨value, literals, rfl⟩ := List.exists_cons_of_ne_nil h
  simp only [choice, hall]

theorem choice_mixed {types : List TypeExpr} (h : TypeExpr.AreMixed types)
    (validators : List Validator) :
    choice types validators =
      if validators.isEmpty then none
      else some (.callArray "oneOfType" (validators.map .validator)) := by
  obtain ⟨t, ht, hne⟩ := h
  rw [choice, allLiterals?_eq_none ht (literal?_eq_none hne)]

theorem literals_of_perm {literals : List Literal} {types : List TypeExpr}
    (h : (literals.map .literal).Perm types) :
    ∃ others : List Literal, literals.Perm others ∧ types = others.map .literal := by
  rcases TypeExpr.areMixed_or_literals types with ⟨t, ht, hne⟩ | ⟨others, rfl⟩
  · obtain ⟨value, -, rfl⟩ := List.mem_map.mp (h.mem_iff.mpr ht)
    exact absurd rfl (hne value)
  · have hinjective : Function.Injective TypeExpr.literal := fun _ _ => TypeExpr.literal.inj
    exact ⟨others, (List.map_perm_map_iff hinjective).mp h, rfl⟩

/-- Unions, or intersections, of the same types in another order. -/
theorem inOrder_choice {p q : TypeExpr} {before after : List TypeExpr}
    (hp : p.choices? = some before) (hq : q.choices? = some after) (h : before.Perm after) :
    Option.Rel (InOrderOfMembers setting p q) (convert setting p).value
      (convert setting q).value := by
  rw [convert, convert, TypeExpr.convertWithin_choices hp, TypeExpr.convertWithin_choices hq]
  rcases TypeExpr.areMixed_or_literals before with hmixed | ⟨literals, rfl⟩
  · have hmixed' : TypeExpr.AreMixed after := by
      obtain ⟨t, ht, hne⟩ := hmixed
      exact ⟨t, h.mem_iff.mp ht, hne⟩
    have hvalues (types : List TypeExpr) : (convertTypes setting types).value.map .validator =
        types.filterMap (TypeExpr.element? setting) := by
      rw [convertTypes_value, List.map_filterMap]
      rfl
    have hperm : (convertTypes setting before).value.Perm (convertTypes setting after).value := by
      rw [convertTypes_value, convertTypes_value]
      exact h.filterMap _
    rw [choice_mixed hmixed, choice_mixed hmixed', hperm.isEmpty_eq, hvalues, hvalues]
    split
    · exact .none
    · exact .some (.types hp hq h)
  · obtain ⟨others, hperm, rfl⟩ := literals_of_perm h
    by_cases hempty : literals = []
    · subst hempty
      obtain rfl := hperm.nil_eq
      exact .none
    · have hothers : others ≠ [] := by
        rintro rfl
        exact hempty hperm.eq_nil
      rw [choice_literals hempty, choice_literals hothers]
      exact .some (.literals hp hq hperm)

theorem IsShape.perm {before after : List Member} (h : IsShape before) (hperm : before.Perm after) :
    IsShape after := by
  refine ⟨fun hnil => h.1 (hnil ▸ hperm).eq_nil, fun type hindex => h.2 type ?_⟩
  exact List.perm_singleton.mp (hindex ▸ hperm)

namespace TypeExpr.Permuted

variable {p q : TypeExpr}

theorem left_not_literal (h : p.Permuted q) : p.literal? = none := by
  cases h <;> rfl

theorem right_not_literal (h : p.Permuted q) : q.literal? = none := by
  cases h <;> rfl

theorem convertWithin_left (h : p.Permuted q) (b : Bool) :
    convertWithin setting b p = convert setting p :=
  convertWithin_of_bare (by cases h <;> nofun) b false

theorem convertWithin_right (h : p.Permuted q) (b : Bool) :
    convertWithin setting b q = convert setting q :=
  convertWithin_of_bare (by cases h <;> nofun) b false

theorem eq_or_inOrder (h : p.Permuted q) :
    p = q ∨ Option.Rel (InOrderOfMembers setting p q) (convert setting p).value
      (convert setting q).value := by
  cases h with
  | union h | intersection h => exact .inr (inOrder_choice rfl rfl h)
  | @object before after h =>
    rcases members_cases before with rfl | ⟨index, rfl⟩ | hshape
    · rw [h.nil_eq]
      exact .inl rfl
    · rw [List.perm_singleton.mp h.symm]
      exact .inl rfl
    · right
      rw [convert, convert, convertWithin_shape_value false hshape,
        convertWithin_shape_value false (hshape.perm h), convertProperties_value,
        convertProperties_value]
      exact .some (.shape h)

theorem interchangeable (h : p.Permuted q)
    (heq : (convert setting p).value = (convert setting q).value) :
    p.Interchangeable setting q where
  value_eq b := by rw [h.convertWithin_left b, h.convertWithin_right b, heq]
  left_not_literal := h.left_not_literal
  right_not_literal := h.right_not_literal

end TypeExpr.Permuted

theorem InOrderOfMembers.permuted {p q : TypeExpr} {v w : Validator}
    (h : InOrderOfMembers setting p q v w) : v.Permuted w := by
  cases h with
  | literals _ _ h => exact .array "oneOf" (h.map _)
  | types _ _ h => exact .array "oneOfType" (h.filterMap _)
  | shape h => exact .object "shape" ((h.filterMap _).filterMap _)

/-- The members of a type in another order make no difference to the validator of the whole, or they
do so only at one place of it, which the context decides: there what the members give stands in
their order. -/
theorem TypeContext.exists_place (setting : Setting) (context : TypeContext) :
    ∃ around : ValidatorContext, ∀ p q : TypeExpr, p.Permuted q →
      (convert setting (context.fill p)).value = (convert setting (context.fill q)).value ∨
      ∃ v w, InOrderOfMembers setting p q v w ∧
        (convert setting (context.fill p)).value = some (around.fill v) ∧
        (convert setting (context.fill q)).value = some (around.fill w) := by
  have hcontext : context.Conceals setting false ∨ ∃ around, context.Shows setting false around :=
    context.conceals_or_shows false
  rcases hcontext with h | ⟨around, c, h⟩
  · exact ⟨.hole, fun p q hpq => .inl (h p q hpq.left_not_literal hpq.right_not_literal)⟩
  · refine ⟨around, fun p q hpq => ?_⟩
    have hplace : p = q ∨ Option.Rel (InOrderOfMembers setting p q) (convert setting p).value
        (convert setting q).value := hpq.eq_or_inOrder
    rcases hplace with rfl | hrel
    · exact .inl rfl
    · cases hp : (convert setting p).value with
      | none =>
        cases hq : (convert setting q).value with
        | none =>
          have heq := hp.trans hq.symm
          exact .inl (((hpq.interchangeable heq).fill context).value_eq false)
        | some w =>
          rw [hp, hq] at hrel
          cases hrel
      | some v =>
        cases hq : (convert setting q).value with
        | none =>
          rw [hp, hq] at hrel
          cases hrel
        | some w =>
          rw [hp, hq] at hrel
          cases hrel with
          | some hrel =>
            -- Neither type is in parentheses, so those that the context puts around the place,
            -- of which `c` tells, do not matter.
            rw [← hpq.convertWithin_left c] at hp
            rw [← hpq.convertWithin_right c] at hq
            exact .inr ⟨v, w, hrel, h p v hpq.left_not_literal hp,
              h q w hpq.right_not_literal hq⟩

/-- Two results that are both none, or are the same but for the order at any number of places. -/
abbrev ReorderedResult : Option Validator → Option Validator → Prop :=
  Option.Rel Validator.Reordered

theorem ReorderedResult.refl (result : Option Validator) : ReorderedResult result result := by
  cases result with
  | none => exact .none
  | some v => exact .some .refl

theorem ReorderedResult.trans {r₁ r₂ r₃ : Option Validator} (h₁ : ReorderedResult r₁ r₂)
    (h₂ : ReorderedResult r₂ r₃) : ReorderedResult r₁ r₃ := by
  cases h₁ with
  | none => exact h₂
  | some h₁ =>
    cases h₂ with
    | some h₂ => exact .some (ReflTransGen.trans h₁ h₂)

theorem reordered_of_changedAt {t u : TypeExpr} (h : TypeExpr.ChangedAt TypeExpr.Permuted t u) :
    ReorderedResult (convert setting t).value (convert setting u).value := by
  obtain ⟨context, hpq⟩ := h
  obtain ⟨around, hplace⟩ := context.exists_place setting
  rcases hplace _ _ hpq with heq | ⟨v, w, hinOrder, hv, hw⟩
  · rw [heq]
    exact .refl _
  · rw [hv, hw]
    exact .some (.single (.intro around hinOrder.permuted))

/-- The order of members is carried through to what they give, and makes no other difference. Around
every place in a type there is one context of validators, such that the members of a union, an
intersection or an object type at that place, in another order, leave the result as it is, or change
no more of it than the array or the object that they give, in which each entry moves with its
member; the array of a reference is no such one. So types that are the same but for the order of
members, at any number of places, both have a validator or neither has, and the validators are the
same but for the order of elements and of properties. -/
theorem order_of_members_is_carried_through (setting : Setting) :
    (∀ context : TypeContext, ∃ around : ValidatorContext, ∀ p q : TypeExpr, p.Permuted q →
      (convert setting (context.fill p)).value = (convert setting (context.fill q)).value ∨
      ∃ v w, InOrderOfMembers setting p q v w ∧
        (convert setting (context.fill p)).value = some (around.fill v) ∧
        (convert setting (context.fill q)).value = some (around.fill w)) ∧
    (∀ p q v w, InOrderOfMembers setting p q v w → v.Permuted w) ∧
    (∀ t u : TypeExpr, TypeExpr.Changed TypeExpr.Permuted t u →
      ReorderedResult (convert setting t).value (convert setting u).value) := by
  refine ⟨TypeContext.exists_place setting, fun p q v w => InOrderOfMembers.permuted,
    fun t u h => ?_⟩
  induction h with
  | refl => exact .refl _
  | tail _ hstep ih => exact ih.trans (reordered_of_changedAt hstep)

/-- A list of mixed types with an object type among them: the types and the members of the object
type change their order, and so do the validators and the properties, beside a reference whose array
stays as it is. -/
theorem nested_members_are_carried_through :
    let setting : Setting := ⟨defaultImportName, EntityName.flatten⟩
    let ref : TypeExpr := .reference (.identifier "Ref") []
    let icon : Member := .property (.mk (.identifier "icon") (some ref) (some true))
    let title : Member := .property (.mk (.identifier "title") (some .string) (some true))
    let render : Member := .method (.identifier "render")
    let t : TypeExpr := .array (.union [.number, .other "any", .object [icon, render, title]])
    let u : TypeExpr := .array (.union [.object [title, render, icon], .other "any", .number])
    let refs : Validator := .callArray "oneOfType"
      [.validator (.member "string"), .validator (.member "func"), .validator (.member "object")]
    let shape (properties : List Assignment) : Element :=
      .validator (.call "shape" [.object properties])
    let first : Assignment := .mk (.identifier "icon") refs
    let second : Assignment := .mk (.identifier "title") (.member "string")
    let v : Validator := .callOne "arrayOf" (.callArray "oneOfType"
      [.validator (.member "number"), shape [first, second]])
    let w : Validator := .callOne "arrayOf" (.callArray "oneOfType"
      [shape [second, first], .validator (.member "number")])
    TypeExpr.Changed TypeExpr.Permuted t u ∧ (convert setting t).value = some v ∧
      (convert setting u).value = some w ∧ v.Reordered w := by
  intro setting ref icon title render t u refs shape first second v w
  have hmembers : [icon, render, title].Perm [title, render, icon] :=
    (List.reverse_perm [icon, render, title]).symm
  have htypes : List.Perm [TypeExpr.number, .other "any", .object [title, render, icon]]
      [.object [title, render, icon], .other "any", .number] := (List.reverse_perm _).symm
  have hchanged : TypeExpr.Changed TypeExpr.Permuted t u :=
    .tail
      (.single (.intro (.array (.union [.number, .other "any"] .hole [])) (.object hmembers)))
      (.intro (.array .hole) (.union htypes))
  have hv : (convert setting t).value = some v := rfl
  have hw : (convert setting u).value = some w := rfl
  have hrel := (order_of_members_is_carried_through setting).2.2 t u hchanged
  rw [hv, hw] at hrel
  cases hrel with
  | some hrel => exact ⟨hchanged, hv, hw, hrel⟩

end PropValidators
