import PropValidators.Proofs.Conversion.Retention
/-!
Which types have a validator: those from which a chain of unions, intersections and sole index
signatures leads to a type that has one whatever is in it. Each type of the chain is looked at
without its outermost layer of parentheses, if it has one.
-/
namespace PropValidators

open Relation

namespace TypeExpr

/-- A type without its outermost layer of parentheses, if it has one. -/
def unwrapped : TypeExpr → TypeExpr
  | parenthesized inner => inner
  | type => type

/-- The types of a union or an intersection. -/
def choices? : TypeExpr → Option (List TypeExpr)
  | union types => some types
  | intersection types => some types
  | _ => none

/-- Types of which one at least is not a literal type. -/
def AreMixed (types : List TypeExpr) : Prop := ∃ t ∈ types, ∀ value, t ≠ literal value

/-- The types that decide whether another one has a validator, which has no parentheses around it:
each one of a mixed union or intersection, and the type of a sole index signature. -/
inductive DependsOn : TypeExpr → TypeExpr → Prop
  | choice {type next : TypeExpr} {types : List TypeExpr} :
    type.choices? = some types → AreMixed types → next ∈ types → DependsOn type next
  | indexed (type : TypeExpr) : DependsOn (.object [.index (some type)]) type

/-- One step of a chain of types, each of which is looked at without a layer of parentheses. -/
def LeadsTo (type next : TypeExpr) : Prop := type.unwrapped.DependsOn next

/-- Types without parentheses around them that have a validator whatever is in them. -/
inductive AlwaysConverts (setting : Setting) : TypeExpr → Prop
  | string : AlwaysConverts setting .string
  | number : AlwaysConverts setting .number
  | boolean : AlwaysConverts setting .boolean
  | symbol : AlwaysConverts setting .symbol
  | function : AlwaysConverts setting .function
  | reference {name : EntityName} {rule : ReferenceRule} (arguments : List TypeExpr) :
    rule ∈ ReferenceRule.all → rule.covers (setting.resolve name) setting.importName = true →
      AlwaysConverts setting (.reference name arguments)
  | array (element : TypeExpr) : AlwaysConverts setting (.array element)
  | object {members : List Member} :
    (∀ type, members ≠ [.index type]) → AlwaysConverts setting (.object members)
  | literals {type : TypeExpr} {literals : List Literal} :
    type.choices? = some (literals.map .literal) → literals ≠ [] → AlwaysConverts setting type

def HasValidator (setting : Setting) (type : TypeExpr) : Prop :=
  ∃ v, (convert setting type).value = some v

end TypeExpr

variable {setting : Setting}

theorem exists_validatorOfReference {name importName : Text} :
    (∃ v, validatorOfReference name importName = some v) ↔
      ∃ rule ∈ ReferenceRule.all, rule.covers name importName = true := by
  unfold validatorOfReference
  constructor
  · rintro ⟨v, hv⟩
    obtain ⟨rule, hrule, -⟩ := Option.map_eq_some_iff.mp hv
    have hcovers := List.find?_some hrule
    exact ⟨rule, List.mem_of_find?_eq_some hrule, hcovers⟩
  · rintro ⟨rule, hmem, hcovers⟩
    cases hfind : ReferenceRule.all.find? fun rule => rule.covers name importName with
    | none => exact absurd hcovers (List.find?_eq_none.mp hfind rule hmem)
    | some found => exact ⟨found.validator, rfl⟩

namespace TypeExpr

variable {type next : TypeExpr} {types : List TypeExpr}

/-! ### Unions and intersections -/

theorem areMixed_or_literals (types : List TypeExpr) :
    AreMixed types ∨ ∃ literals : List Literal, types = literals.map .literal := by
  induction types with
  | nil => exact .inr ⟨[], rfl⟩
  | cons t types ih =>
    rcases ih with ⟨u, hu, hne⟩ | ⟨literals, rfl⟩
    · exact .inl ⟨u, List.mem_cons_of_mem t hu, hne⟩
    · cases t with
      | literal value => exact .inr ⟨value :: literals, rfl⟩
      | _ => exact .inl ⟨_, List.mem_cons_self, fun value heq => nomatch heq⟩

/-- There is a choice among literal values if there are any, and among types if one of them has a
validator. -/
theorem exists_choice :
    (∃ v, choice types (convertTypes setting types).value = some v) ↔
      (∃ literals : List Literal, literals ≠ [] ∧ types = literals.map .literal) ∨
      (AreMixed types ∧ ∃ t ∈ types, t.HasValidator setting) := by
  constructor
  · rintro ⟨v, hv⟩
    rcases choice_cases hv with ⟨literals, hne, htypes, -⟩ | ⟨hne, -⟩
    · exact .inl ⟨literals, hne, htypes⟩
    · rcases areMixed_or_literals types with hmixed | ⟨literals, rfl⟩
      · obtain ⟨w, hw⟩ := List.exists_mem_of_ne_nil _ hne
        rw [convertTypes_value] at hw
        obtain ⟨t, ht, hw⟩ := List.mem_filterMap.mp hw
        exact .inr ⟨hmixed, t, ht, w, hw⟩
      · exact absurd (convertTypes_literals literals) hne
  · rintro (⟨literals, hne, rfl⟩ | ⟨-, t, ht, v, hv⟩)
    · have hall : allLiterals? (literals.map .literal) = some literals :=
        allLiterals?_eq_some.mpr rfl
      obtain ⟨value, literals, rfl⟩ := List.exists_cons_of_ne_nil hne
      exact ⟨.callArray "oneOf" ((value :: literals).map .literal), by simp only [choice, hall]⟩
    · obtain ⟨w, hw, -⟩ := exists_choice_contains ht hv
      exact ⟨w, hw⟩

theorem convertWithin_choices (h : type.choices? = some types) (b : Bool) :
    (convertWithin setting b type).value = choice types (convertTypes setting types).value := by
  cases type with
  | union _ | intersection _ =>
    cases h
    rfl
  | _ => cases h

theorem alwaysConverts_choices (h : type.choices? = some types) :
    type.AlwaysConverts setting ↔
      ∃ literals : List Literal, literals ≠ [] ∧ types = literals.map .literal := by
  constructor
  · intro halways
    cases halways with
    | literals h' hne => exact ⟨_, hne, Option.some.inj (h.symm.trans h')⟩
    | _ => cases h
  · rintro ⟨literals, hne, rfl⟩
    exact .literals h hne

theorem dependsOn_choices (h : type.choices? = some types) :
    type.DependsOn next ↔ AreMixed types ∧ next ∈ types := by
  constructor
  · intro hdepends
    cases hdepends with
    | choice h' hmixed hnext =>
      obtain rfl := Option.some.inj (h.symm.trans h')
      exact ⟨hmixed, hnext⟩
    | indexed => cases h
  · rintro ⟨hmixed, hnext⟩
    exact .choice h hmixed hnext

/-! ### One type by those that it depends on -/

/-- A type that always has a validator, or depends on one that has. -/
def Decided (setting : Setting) (type : TypeExpr) : Prop :=
  type.AlwaysConverts setting ∨ ∃ next, type.DependsOn next ∧ next.HasValidator setting

/-- Only unions, intersections and object types depend on others. -/
theorem not_dependsOn (hobject : ∀ members, type ≠ object members)
    (hchoices : type.choices? = none) : ¬type.DependsOn next := by
  intro hdepends
  cases hdepends with
  | choice h => cases hchoices.symm.trans h
  | indexed => exact hobject _ rfl

theorem decided_choices (h : type.choices? = some types) (b : Bool) :
    (∃ v, (convertWithin setting b type).value = some v) ↔ type.Decided setting := by
  rw [convertWithin_choices h, exists_choice, Decided, alwaysConverts_choices h]
  simp only [dependsOn_choices h, and_assoc, exists_and_left]

theorem decided_reference (b : Bool) (name : EntityName) (arguments : List TypeExpr) :
    (∃ v, (convertWithin setting b (.reference name arguments)).value = some v) ↔
      (reference name arguments).Decided setting := by
  constructor
  · intro hv
    obtain ⟨rule, hmem, hcovers⟩ := exists_validatorOfReference.mp hv
    exact .inl (.reference arguments hmem hcovers)
  · rintro (halways | ⟨next, hdepends, -⟩)
    · cases halways with
      | reference _ hmem hcovers => exact exists_validatorOfReference.mpr ⟨_, hmem, hcovers⟩
      | literals h => cases h
    · exact absurd hdepends (not_dependsOn nofun rfl)

theorem decided_object (b : Bool) (members : List Member) :
    (∃ v, (convertWithin setting b (.object members)).value = some v) ↔
      (object members).Decided setting := by
  rcases members_cases members with rfl | ⟨index, rfl⟩ | hshape
  · exact ⟨fun _ => .inl (.object nofun), fun _ => ⟨_, rfl⟩⟩
  · have hnever : ¬(object [.index index]).AlwaysConverts setting := by
      intro halways
      cases halways with
      | object hne => exact hne index rfl
      | literals h => cases h
    cases index with
    | none =>
      constructor
      · rintro ⟨v, hv⟩
        cases hv
      · rintro (halways | ⟨next, hdepends, -⟩)
        · exact absurd halways hnever
        · cases hdepends with
          | choice h => cases h
    | some type =>
      rw [convertWithin_indexed_value]
      constructor
      · rintro ⟨v, hv⟩
        obtain ⟨w, hw, -⟩ := Option.map_eq_some_iff.mp hv
        exact .inr ⟨type, .indexed type, w, hw⟩
      · rintro (halways | ⟨next, hdepends, v, hv⟩)
        · exact absurd halways hnever
        · cases hdepends with
          | choice h => cases h
          | indexed => exact ⟨_, Option.map_eq_some_iff.mpr ⟨v, hv, rfl⟩⟩
  · exact ⟨fun _ => .inl (.object hshape.2), fun _ => ⟨_, convertWithin_shape_value b hshape⟩⟩

/-- Conversion is decided by a type itself or by one that it depends on, once its parentheses have
been looked through. -/
theorem exists_convertWithin (b : Bool) (type : TypeExpr)
    (h : b = true ∨ ∀ inner, type ≠ .parenthesized inner) :
    (∃ v, (convertWithin setting b type).value = some v) ↔ type.Decided setting := by
  cases type with
  | string => exact ⟨fun _ => .inl .string, fun _ => ⟨_, rfl⟩⟩
  | number => exact ⟨fun _ => .inl .number, fun _ => ⟨_, rfl⟩⟩
  | boolean => exact ⟨fun _ => .inl .boolean, fun _ => ⟨_, rfl⟩⟩
  | symbol => exact ⟨fun _ => .inl .symbol, fun _ => ⟨_, rfl⟩⟩
  | function => exact ⟨fun _ => .inl .function, fun _ => ⟨_, rfl⟩⟩
  | reference name arguments => exact decided_reference b name arguments
  | array element =>
    exact ⟨fun _ => .inl (.array element), fun _ => ⟨_, convertWithin_array_value b element⟩⟩
  | object members => exact decided_object b members
  | union types => exact decided_choices rfl b
  | intersection types => exact decided_choices rfl b
  | literal _ | other _ =>
    constructor
    · rintro ⟨v, hv⟩
      cases hv
    · rintro (halways | ⟨next, hdepends, -⟩)
      · exact absurd halways nofun
      · exact absurd hdepends (not_dependsOn nofun rfl)
  | parenthesized inner =>
    obtain rfl : b = true := h.resolve_right fun hne => hne inner rfl
    constructor
    · rintro ⟨v, hv⟩
      cases hv
    · rintro (halways | ⟨next, hdepends, -⟩)
      · exact absurd halways nofun
      · exact absurd hdepends (not_dependsOn nofun rfl)

/-- The law of one step of a chain. -/
theorem hasValidator_iff :
    type.HasValidator setting ↔
      type.unwrapped.AlwaysConverts setting ∨
        ∃ next, type.LeadsTo next ∧ next.HasValidator setting := by
  cases type with
  | parenthesized inner => exact exists_convertWithin true inner (.inl rfl)
  | _ => exact exists_convertWithin false _ (.inr fun _ => nofun)

/-! ### Chains -/

theorem DependsOn.sizeOf_lt (h : type.DependsOn next) : sizeOf next < sizeOf type := by
  cases h with
  | choice hchoices _ hnext =>
    have hlt := List.sizeOf_lt_of_mem hnext
    cases type with
    | union _ | intersection _ =>
      cases hchoices
      simp only [union.sizeOf_spec, intersection.sizeOf_spec]
      omega
    | _ => cases hchoices
  | indexed type =>
    simp
    omega

/-- A chain leads further down into the type that it starts at. -/
theorem LeadsTo.sizeOf_lt (h : type.LeadsTo next) : sizeOf next < sizeOf type := by
  have hunwrapped : sizeOf type.unwrapped ≤ sizeOf type := by
    cases type with
    | parenthesized inner => simp [unwrapped]
    | _ => exact Nat.le_refl _
  exact Nat.lt_of_lt_of_le (DependsOn.sizeOf_lt h) hunwrapped

/-- A type has a validator if and only if a chain leads from it to one that always has. -/
theorem hasValidator_iff_chain :
    type.HasValidator setting ↔
      ∃ last, ReflTransGen LeadsTo type last ∧ last.unwrapped.AlwaysConverts setting := by
  constructor
  · induction type using (measure (sizeOf (α := TypeExpr))).wf.induction with
    | _ type ih =>
      intro h
      rcases hasValidator_iff.mp h with halways | ⟨next, hleads, hnext⟩
      · exact ⟨type, .refl, halways⟩
      · obtain ⟨last, hchain, halways⟩ := ih next hleads.sizeOf_lt hnext
        exact ⟨last, .head hleads hchain, halways⟩
  · rintro ⟨last, hchain, halways⟩
    induction hchain using ReflTransGen.head_induction_on with
    | refl => exact hasValidator_iff.mpr (.inl halways)
    | head hleads _ ih => exact hasValidator_iff.mpr (.inr ⟨_, hleads, ih⟩)

end TypeExpr

/-- An index signature passes on what its type has: the literals of a union in parentheses are
chosen from, and two layers of parentheses hide them. -/
example :
    let setting : Setting := ⟨defaultImportName, EntityName.flatten⟩
    let sizes : TypeExpr := .union [.literal (.int 1), .literal (.int 2)]
    (convert setting (.object [.index (some (.parenthesized sizes))])).value.isSome = true ∧
      (convert setting (.object [.index (some (.parenthesized (.parenthesized sizes)))])).value =
        none := ⟨rfl, rfl⟩

end PropValidators
