import Mathlib.Data.List.Basic
import PropValidators.Proofs.Text.Basic
import PropValidators.Reference
/-!
Flattened names: the identifiers of a name are read back from its dotted text, if none of them has a
dot itself, so that types of the framework are matched by text as they would be by name.
-/
namespace PropValidators

namespace EntityName

/-- The identifiers of a name from left to right. -/
def identifiers : EntityName → List JoinedText
  | identifier name => [name]
  | qualified left right => left.identifiers ++ [right]

/-- No identifier of the name has a dot in it. -/
def IsDotless (name : EntityName) : Prop := ∀ s ∈ name.identifiers, .char '.' ∉ s.points

instance (name : EntityName) : Decidable name.IsDotless :=
  inferInstanceAs (Decidable (∀ s ∈ name.identifiers, _))

variable {name name' : EntityName}

/-! ### Names by their identifiers -/

theorem identifiers_ne_nil (name : EntityName) : name.identifiers ≠ [] := by
  cases name <;> simp [identifiers]

/-- Qualifiers nest on the left only, so there is one name for given identifiers. -/
theorem identifiers_injective : Function.Injective identifiers := by
  intro name
  induction name with
  | identifier name =>
    intro name' h
    cases name' with
    | identifier other =>
      obtain rfl : name = other := by simpa [identifiers] using h
      rfl
    | qualified left right =>
      have hlength := congrArg List.length h
      simp [identifiers, identifiers_ne_nil] at hlength
  | qualified left right ih =>
    intro name' h
    cases name' with
    | identifier other =>
      have hlength := congrArg List.length h
      simp [identifiers, identifiers_ne_nil] at hlength
    | qualified left' right' =>
      obtain ⟨hleft, hright⟩ := List.append_inj' h rfl
      rw [ih hleft, List.singleton_inj.mp hright]

/-! ### Names by their text -/

theorem splitOn_qualified {right : JoinedText} (h : .char '.' ∉ right.points) (left : EntityName) :
    (qualified left right).flatten.splitOn (.char '.') =
      left.flatten.splitOn (.char '.') ++ [right.points] := by
  rw [flatten, Text.append_dot, List.splitOn_append_cons_self, List.splitOn_eq_singleton h]

/-- Split at the dots, the text of a name has its identifiers in order. -/
theorem splitOn_flatten (h : name.IsDotless) :
    name.flatten.splitOn (.char '.') = name.identifiers.map JoinedText.points := by
  induction name with
  | identifier name =>
    have hname : .char '.' ∉ name.points := h name (by simp [identifiers])
    simp [flatten, identifiers, List.splitOn_eq_singleton hname]
  | qualified left right ih =>
    obtain ⟨hleft, hright⟩ := List.forall_mem_append.mp h
    rw [splitOn_qualified (hright right (by simp)), ih hleft]
    simp [identifiers]

theorem points_injective : Function.Injective JoinedText.points :=
  fun _ _ => JoinedText.points_inj.mp

theorem eq_of_flatten_eq (h : name.IsDotless) (h' : name'.IsDotless)
    (heq : name.flatten = name'.flatten) : name = name' := by
  apply identifiers_injective
  apply List.map_injective_iff.mpr points_injective
  rw [← splitOn_flatten h, heq, splitOn_flatten h']

/-! ### Types of the framework -/

theorem flatten_eq_iff (h : name.IsDotless) {type : JoinedText} (htype : .char '.' ∉ type.points) :
    name.flatten = type.points ↔ name = .identifier type := by
  have hbare : IsDotless (.identifier type) := by simpa [IsDotless, identifiers] using htype
  exact ⟨eq_of_flatten_eq h hbare, congrArg flatten⟩

/-- The text of a name has one dot, after a given text, if the name is qualified once by that. -/
theorem flatten_eq_qualified_iff (h : name.IsDotless) {type : JoinedText}
    (htype : .char '.' ∉ type.points) {qualifier : Text} (hqualifier : .char '.' ∉ qualifier) :
    name.flatten = qualifier ++ "." ++ type.points ↔
      ∃ q : JoinedText, q.points = qualifier ∧ name = .qualified (.identifier q) type := by
  constructor
  · intro heq
    have hsplit : name.identifiers.map JoinedText.points = [qualifier, type.points] := by
      rw [← splitOn_flatten h, heq, Text.append_dot, List.splitOn_append_cons_self,
        List.splitOn_eq_singleton hqualifier, List.splitOn_eq_singleton htype]
      rfl
    obtain ⟨q, rest, hidentifiers, hq, hrest⟩ := List.map_eq_cons_iff.mp hsplit
    obtain ⟨t, ht⟩ := List.map_eq_singleton_iff.mp hrest
    obtain ⟨rfl, htype⟩ := ht
    obtain rfl := points_injective htype
    exact ⟨q, hq, identifiers_injective hidentifiers⟩
  · rintro ⟨q, rfl, rfl⟩
    rfl

theorem isFrameworkType_flatten_iff {type : JoinedText} {importName : Text} (h : name.IsDotless)
    (htype : .char '.' ∉ type.points) (himport : .char '.' ∉ importName) :
    isFrameworkType name.flatten type.points importName = true ↔
      name = .identifier type ∨ name = .qualified (.identifier "React") type ∨
        ∃ q : JoinedText, q.points = importName ∧ name = .qualified (.identifier q) type := by
  have hown : name.flatten = "React." ++ type.points ↔
      name = .qualified (.identifier "React") type := by
    have hdot : "React." ++ type.points = ("React" : Text) ++ "." ++ type.points := rfl
    rw [hdot, flatten_eq_qualified_iff h htype (by decide)]
    constructor
    · rintro ⟨q, hq, rfl⟩
      obtain rfl : q = "React" := JoinedText.points_inj.mp hq
      rfl
    · rintro rfl
      exact ⟨"React", rfl, rfl⟩
  simp only [isFrameworkType, Bool.or_eq_true, decide_eq_true_eq, or_assoc,
    flatten_eq_iff h htype, hown, flatten_eq_qualified_iff h htype himport]

end EntityName

/-- Flattening loses nothing of names without dots in their identifiers. Split at the dots, the text
of such a name has its identifiers from left to right, and names of one text are equal. A name of
this kind matches a type of the framework by its text, under an import name without dots, if and
only if it is the bare type, or the type qualified once, by the framework's own name or by the name
that it is imported as. -/
theorem flattening_loses_nothing :
    (∀ name : EntityName, name.IsDotless →
      name.flatten.splitOn (.char '.') = name.identifiers.map JoinedText.points) ∧
    (∀ name name' : EntityName, name.IsDotless → name'.IsDotless →
      name.flatten = name'.flatten → name = name') ∧
    (∀ (name : EntityName) (type : JoinedText) (importName : Text), name.IsDotless →
      .char '.' ∉ type.points → .char '.' ∉ importName →
        (isFrameworkType name.flatten type.points importName = true ↔
          name = .identifier type ∨ name = .qualified (.identifier "React") type ∨
            ∃ q : JoinedText, q.points = importName ∧ name = .qualified (.identifier q) type)) :=
  ⟨fun _ => EntityName.splitOn_flatten, fun _ _ => EntityName.eq_of_flatten_eq,
    fun _ _ _ => EntityName.isFrameworkType_flatten_iff⟩

/-- A name whose first and last identifiers are empty is read back from its text. Under the import
name `UI` a type matches if it is qualified by that once, and not if it is qualified twice. -/
theorem flattening_loses_no_empty_identifier :
    let name : EntityName := .qualified (.qualified (.identifier "") "UI") ""
    let once : EntityName := .qualified (.identifier "UI") "Ref"
    let twice : EntityName := .qualified (.qualified (.identifier "React") "UI") "Ref"
    name.IsDotless ∧ name.flatten.splitOn (.char '.') = [("" : Text), ("UI" : Text), ("" : Text)] ∧
      (∀ other : EntityName, other.IsDotless → other.flatten = ".UI." → other = name) ∧
      isFrameworkType once.flatten "Ref" "UI" = true ∧
      isFrameworkType twice.flatten "Ref" "UI" = false := by
  intro name once twice
  obtain ⟨hsplit, hinjective, hmatches⟩ := flattening_loses_nothing
  have hname : name.IsDotless := by decide
  refine ⟨hname, hsplit name hname, ?_, ?_, ?_⟩
  · exact fun other hother h => hinjective other name hother hname h
  · exact (hmatches once "Ref" "UI" (by decide) (by decide) (by decide)).mpr (by simp [once])
  · have hiff := hmatches twice "Ref" "UI" (by decide) (by decide) (by decide)
    rw [Bool.eq_false_iff]
    intro h
    simpa [twice] using hiff.mp h

end PropValidators
