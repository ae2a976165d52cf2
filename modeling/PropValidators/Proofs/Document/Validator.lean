import PropValidators.Document.Validator
import PropValidators.Proofs.Document.Members
/-!
Validators and assignments that are written out check as themselves, whatever they are made of.
-/
namespace PropValidators

namespace Literal

/-- A literal value keeps its type. -/
@[simp] theorem check_toJson (value : Literal) : check value.toJson = .valid value := by
  cases value <;> rfl

theorem checkMembers_toJson (value : Literal) :
    checkMembers [Json.member "kind" (.ofString "value"), Json.member "value" value.toJson] =
      .valid value := by
  simp [checkMembers, Members.required_eq]

end Literal

theorem PropertyKey.check_toJson (key : PropertyKey) : check key.toJson = .valid key := by
  cases key with
  | identifier name =>
    simp [toJson, Json.ofKind, check, EntityName.checkIdentifier, Members.required_eq]
  | literal value =>
    simp [toJson, Literal.toDocument, Json.ofKind, check, Literal.checkMembers_toJson]

/-- The members of a validator that is written out, after which it is checked by its kind. -/
def Validator.IsWritten (v : Validator) : Prop :=
  ∃ kind ∈ ["member", "call", "required"], ∃ members, v.toJson = .object members ∧
    Members.kind members = .ok kind ∧ Validator.checkKind? kind members = some (.valid v)

namespace Validator.IsWritten

variable {v : Validator}

theorem check (h : v.IsWritten) : Validator.check v.toJson = .valid v := by
  obtain ⟨kind, _, members, hjson, hkind, hcheck⟩ := h
  rw [hjson, Validator.check]
  simp only [hkind, hcheck, Option.getD_some]

theorem checkArgument (h : v.IsWritten) : Argument.check v.toJson = .valid (.validator v) := by
  obtain ⟨kind, hmem, members, hjson, hkind, hcheck⟩ := h
  simp only [List.mem_cons, List.not_mem_nil, or_false] at hmem
  rw [hjson, Argument.check]
  rcases hmem with rfl | rfl | rfl <;> simp [hkind, hcheck]

theorem checkElement (h : v.IsWritten) : Element.check v.toJson = .valid (.validator v) := by
  obtain ⟨kind, hmem, members, hjson, hkind, hcheck⟩ := h
  simp only [List.mem_cons, List.not_mem_nil, or_false] at hmem
  rw [hjson, Element.check]
  rcases hmem with rfl | rfl | rfl <;> simp [hkind, hcheck]

end Validator.IsWritten

mutual

theorem Validator.isWritten : (v : Validator) → v.IsWritten
  | .member name => by
    refine ⟨"member", by simp, _, rfl, Members.kind_member _ _ (by simp), ?_⟩
    simp [Validator.checkKind?, Members.required_eq]
  | .call factory arguments => by
    have harguments := Json.checkList_of_forall₂ (Argument.check_listToJson arguments)
    refine ⟨"call", by simp, _, rfl, Members.kind_member _ _ (by simp), ?_⟩
    simp [Validator.checkKind?, Members.required_eq, Members.optional_eq, harguments]
  | .required v => by
    have hv := (Validator.isWritten v).check
    refine ⟨"required", by simp, _, rfl, Members.kind_member _ _ (by simp), ?_⟩
    simp [Validator.checkKind?, Members.required_eq, hv]

theorem Argument.check_toJson : (argument : Argument) →
    Argument.check argument.toJson = .valid argument
  | .validator v => (Validator.isWritten v).checkArgument
  | .array elements => by
    have helements := Json.checkList_of_forall₂ (Element.check_listToJson elements)
    simp [Argument.toJson, Json.ofKind, Argument.check, Members.optional_eq, helements]
  | .object properties => by
    have hproperties := Json.checkList_of_forall₂ (Assignment.check_listToJson properties)
    simp [Argument.toJson, Json.ofKind, Argument.check, Members.optional_eq, hproperties]

theorem Argument.check_listToJson : (arguments : List Argument) →
    List.Forall₂ (fun j a => Argument.check j = .valid a) (Argument.listToJson arguments) arguments
  | [] => .nil
  | argument :: arguments =>
    .cons (Argument.check_toJson argument) (Argument.check_listToJson arguments)

theorem Element.check_toJson : (element : Element) → Element.check element.toJson = .valid element
  | .validator v => (Validator.isWritten v).checkElement
  | .literal value => by
    simp [Element.toJson, Literal.toDocument, Json.ofKind, Element.check,
      Literal.checkMembers_toJson]

theorem Element.check_listToJson : (elements : List Element) →
    List.Forall₂ (fun j e => Element.check j = .valid e) (Element.listToJson elements) elements
  | [] => .nil
  | element :: elements => .cons (Element.check_toJson element) (Element.check_listToJson elements)

theorem Assignment.check_toJson : (assignment : Assignment) →
    Assignment.check assignment.toJson = .valid assignment
  | .mk key value => by
    have hvalue := (Validator.isWritten value).check
    simp [Assignment.toJson, Assignment.check, Members.required_eq, PropertyKey.check_toJson,
      hvalue]

theorem Assignment.check_listToJson : (assignments : List Assignment) →
    List.Forall₂ (fun j a => Assignment.check j = .valid a) (Assignment.listToJson assignments)
      assignments
  | [] => .nil
  | assignment :: assignments =>
    .cons (Assignment.check_toJson assignment) (Assignment.check_listToJson assignments)

end

/-- Assignments that are written out check as themselves, in order. -/
theorem Assignment.checkList_toJson (props : List Assignment) :
    Assignment.checkList (.array (Assignment.listToJson props)) = .valid props :=
  Json.checkList_of_forall₂ (Assignment.check_listToJson props)

end PropValidators
