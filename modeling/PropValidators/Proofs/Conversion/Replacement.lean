import PropValidators.Proofs.Conversion.Walk
/-!
Types in the place of others. What conversion makes of a type is all that the types around it depend
on, but for two things that it sees of the type itself: whether it is a literal type and whether it
is in parentheses.
-/
namespace PropValidators

/-- A type with a hole in it, in which another type has its place. -/
inductive TypeContext where
  | hole
  | array (element : TypeContext)
  | union (before : List TypeExpr) (inner : TypeContext) (after : List TypeExpr)
  | intersection (before : List TypeExpr) (inner : TypeContext) (after : List TypeExpr)
  | parenthesized (inner : TypeContext)
  | property (before : List Member) (key : PropertyKey) (type : TypeContext)
    (optional : Option Bool) (after : List Member)
  | index (before : List Member) (type : TypeContext) (after : List Member)
  | argument (name : EntityName) (before : List TypeExpr) (inner : TypeContext)
    (after : List TypeExpr)

/-- The whole type, with a type in the place of the hole. -/
def TypeContext.fill (t : TypeExpr) : TypeContext → TypeExpr
  | hole => t
  | array element => .array (element.fill t)
  | union before inner after => .union (before ++ inner.fill t :: after)
  | intersection before inner after => .intersection (before ++ inner.fill t :: after)
  | parenthesized inner => .parenthesized (inner.fill t)
  | property before key type optional after =>
    .object (before ++ .property (.mk key (some (type.fill t)) optional) :: after)
  | index before type after => .object (before ++ .index (some (type.fill t)) :: after)
  | argument name before inner after => .reference name (before ++ inner.fill t :: after)

variable {setting : Setting}

/-! ### What is seen of a type -/

theorem convertWithin_eq_none {type : TypeExpr} (h : (convert setting type).value = none)
    (b : Bool) : (convertWithin setting b type).value = none := by
  by_cases hinner : ∃ inner, type = .parenthesized inner
  · obtain ⟨inner, rfl⟩ := hinner
    cases b with
    | true => rfl
    | false => exact h
  · rw [convertWithin_of_bare (not_exists.mp hinner) b false]
    exact h

/-- A choice is the same with another type in it that converts to the same, if neither of the two is
a literal type. -/
theorem choice_eq_of_convert_eq {t u : TypeExpr}
    (h : (convert setting t).value = (convert setting u).value) (ht : t.literal? = none)
    (hu : u.literal? = none) (before after : List TypeExpr) :
    choice (before ++ t :: after) (convertTypes setting (before ++ t :: after)).value =
      choice (before ++ u :: after) (convertTypes setting (before ++ u :: after)).value := by
  rw [choice, choice, allLiterals?_eq_none (by simp) ht, allLiterals?_eq_none (by simp) hu,
    convertTypes_value, convertTypes_value, List.filterMap_append, List.filterMap_append,
    List.filterMap_cons, List.filterMap_cons, h]

namespace TypeExpr

/-- Two types that are no literal types and convert to the same, in parentheses or not. -/
structure Interchangeable (setting : Setting) (t u : TypeExpr) : Prop where
  value_eq : ∀ b, (convertWithin setting b t).value = (convertWithin setting b u).value
  left_not_literal : t.literal? = none
  right_not_literal : u.literal? = none

namespace Interchangeable

variable {t u : TypeExpr}

theorem choice_eq (h : t.Interchangeable setting u) (before after : List TypeExpr) :
    choice (before ++ t :: after) (convertTypes setting (before ++ t :: after)).value =
      choice (before ++ u :: after) (convertTypes setting (before ++ u :: after)).value :=
  choice_eq_of_convert_eq (h.value_eq false) h.left_not_literal h.right_not_literal before after

theorem array (h : t.Interchangeable setting u) :
    (TypeExpr.array t).Interchangeable setting (.array u) where
  value_eq b := by
    rw [convertWithin_array_value, convertWithin_array_value, convert, convert, h.value_eq false]
  left_not_literal := rfl
  right_not_literal := rfl

theorem union (h : t.Interchangeable setting u) (before after : List TypeExpr) :
    (TypeExpr.union (before ++ t :: after)).Interchangeable setting
      (.union (before ++ u :: after)) where
  value_eq _ := h.choice_eq before after
  left_not_literal := rfl
  right_not_literal := rfl

theorem intersection (h : t.Interchangeable setting u) (before after : List TypeExpr) :
    (TypeExpr.intersection (before ++ t :: after)).Interchangeable setting
      (.intersection (before ++ u :: after)) where
  value_eq _ := h.choice_eq before after
  left_not_literal := rfl
  right_not_literal := rfl

theorem parenthesized (h : t.Interchangeable setting u) :
    (TypeExpr.parenthesized t).Interchangeable setting (.parenthesized u) where
  value_eq b := by
    cases b with
    | true => rfl
    | false => exact h.value_eq true
  left_not_literal := rfl
  right_not_literal := rfl

theorem property (h : t.Interchangeable setting u) (before after : List Member)
    (key : PropertyKey) (optional : Option Bool) :
    (TypeExpr.object (before ++ .property (.mk key (some t) optional) :: after)).Interchangeable
      setting (.object (before ++ .property (.mk key (some u) optional) :: after)) where
  value_eq b :=
    convertWithin_property_eq b (convertProperty_value_eq (h.value_eq false) key optional)
      before after
  left_not_literal := rfl
  right_not_literal := rfl

theorem index (h : t.Interchangeable setting u) (before after : List Member) :
    (TypeExpr.object (before ++ .index (some t) :: after)).Interchangeable setting
      (.object (before ++ .index (some u) :: after)) where
  value_eq b := by
    by_cases hsole : before ≠ [] ∨ after ≠ []
    · exact congrArg Traced.value (convertWithin_beside b hsole rfl rfl)
    · obtain ⟨rfl, rfl⟩ : before = [] ∧ after = [] := by simpa using hsole
      have hconvert : (convert setting t).value = (convert setting u).value := h.value_eq false
      rw [List.nil_append, List.nil_append, convertWithin_indexed_value,
        convertWithin_indexed_value, hconvert]
  left_not_literal := rfl
  right_not_literal := rfl

theorem argument (name : EntityName) (before after : List TypeExpr) :
    (TypeExpr.reference name (before ++ t :: after)).Interchangeable setting
      (.reference name (before ++ u :: after)) where
  value_eq b := by simp [convertWithin]
  left_not_literal := rfl
  right_not_literal := rfl

/-- Types that can be interchanged can be so in every context. -/
theorem fill (h : t.Interchangeable setting u) (context : TypeContext) :
    (context.fill t).Interchangeable setting (context.fill u) := by
  induction context with
  | hole => exact h
  | array element ih => exact ih.array
  | union before inner after ih => exact ih.union before after
  | intersection before inner after ih => exact ih.intersection before after
  | parenthesized inner ih => exact ih.parenthesized
  | property before key type optional after ih => exact ih.property before after key optional
  | index before type after ih => exact ih.index before after
  | argument name before inner after ih => exact argument name before after

end Interchangeable

end TypeExpr

theorem literal?_eq_none {type : TypeExpr} (h : ∀ value, type ≠ .literal value) :
    type.literal? = none := by
  cases type with
  | literal value => exact absurd rfl (h value)
  | _ => rfl

/-- Two types that convert to the same can take each other's place anywhere, if neither is a literal
type and either both or neither have parentheses around them: whatever type they stand in, at any
depth, converts to the same. Two types that have no validator can do so with or without
parentheses. -/
theorem conversion_is_a_congruence (setting : Setting) :
    (∀ t u : TypeExpr, (convert setting t).value = (convert setting u).value →
      (∀ value, t ≠ .literal value) → (∀ value, u ≠ .literal value) →
      ((∃ inner, t = .parenthesized inner) ↔ ∃ inner, u = .parenthesized inner) →
        ∀ context : TypeContext,
          (convert setting (context.fill t)).value = (convert setting (context.fill u)).value) ∧
    (∀ t u : TypeExpr, (convert setting t).value = none → (convert setting u).value = none →
      (∀ value, t ≠ .literal value) → (∀ value, u ≠ .literal value) →
        ∀ context : TypeContext,
          (convert setting (context.fill t)).value =
            (convert setting (context.fill u)).value) := by
  constructor
  · intro t u heq ht hu hparentheses context
    have h : t.Interchangeable setting u := by
      refine ⟨fun b => ?_, literal?_eq_none ht, literal?_eq_none hu⟩
      by_cases hinner : ∃ inner, t = .parenthesized inner
      · obtain ⟨inner', rfl⟩ := hparentheses.mp hinner
        obtain ⟨inner, rfl⟩ := hinner
        cases b with
        | true => rfl
        | false => exact heq
      · have hinner' := hinner
        rw [hparentheses] at hinner'
        rw [convertWithin_of_bare (not_exists.mp hinner) b false,
          convertWithin_of_bare (not_exists.mp hinner') b false]
        exact heq
    exact (h.fill context).value_eq false
  · intro t u ht hu htliteral huliteral context
    have h : t.Interchangeable setting u := by
      refine ⟨fun b => ?_, literal?_eq_none htliteral, literal?_eq_none huliteral⟩
      rw [convertWithin_eq_none ht, convertWithin_eq_none hu]
    exact (h.fill context).value_eq false

/-- Two lists whose elements have no validator take each other's place under an index signature
deep in a union, and so do two types without a validator, of which one is in parentheses. -/
theorem lists_take_each_others_place :
    let setting : Setting := ⟨defaultImportName, EntityName.flatten⟩
    let tuples : TypeExpr := .array (.other "tuple")
    let ones : TypeExpr := .array (.literal (.int 1))
    let any : TypeExpr := .other "any"
    let never : TypeExpr := .parenthesized (.union [])
    let context : TypeContext :=
      .union [.literal (.string "a")]
        (.parenthesized (.property [] (.identifier "p") (.index [] .hole []) none
          [.method (.identifier "m")])) [.number]
    (convert setting tuples).value = some (.member "array") ∧
      (convert setting (context.fill tuples)).value =
        (convert setting (context.fill ones)).value ∧
      (convert setting any).value = none ∧
      (convert setting (context.fill any)).value =
        (convert setting (context.fill never)).value := by
  intro setting tuples ones any never context
  obtain ⟨hsame, hnone⟩ := conversion_is_a_congruence setting
  have hparentheses : (∃ inner, tuples = .parenthesized inner) ↔
      ∃ inner, ones = .parenthesized inner := by
    simp [tuples, ones]
  exact ⟨rfl, hsame tuples ones rfl (fun _ => nofun) (fun _ => nofun) hparentheses context, rfl,
    hnone any never rfl rfl (fun _ => nofun) (fun _ => nofun) context⟩

/-- A literal type has no validator either, but is seen for what it is: beside other literal types
it leaves a choice among values, and another type without a validator does not. -/
example :
    let setting : Setting := ⟨defaultImportName, EntityName.flatten⟩
    (convert setting (.union [.literal (.int 1), .literal (.int 2)])).value =
        some (.callArray "oneOf" [.literal (.int 1), .literal (.int 2)]) ∧
      (convert setting (.union [.literal (.int 1), .other "any"])).value = none := ⟨rfl, rfl⟩

end PropValidators
