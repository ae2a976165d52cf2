import PropValidators.Document.TypeExpr
import PropValidators.Proofs.Document.Validator
/-!
Type expressions, members and property signatures that are written out check as themselves, whatever
they are made of.
-/
namespace PropValidators

namespace Members

@[simp] theorem kind_alone (kind : String) :
    Members.kind [Json.member "kind" (.ofString kind)] = .ok kind := kind_member kind [] rfl

@[simp] theorem fixedKind_member (kind : String) (members : Members)
    (h : members.last? "kind" = none) :
    fixedKind (Json.member "kind" (.ofString kind) :: members) kind = .valid () := by
  refine fixedKind_eq_valid ?_
  simp [h]

end Members

namespace EntityName

theorem checkIdentifier_written (name : JoinedText) :
    checkIdentifier
      [Json.member "kind" (.ofString "identifier"), Json.member "name" (.string name)] =
      .valid name := by
  simp [checkIdentifier, Members.required_eq]

theorem check_toJson (name : EntityName) : check name.toJson = .valid name := by
  induction name with
  | identifier name => simp [toJson, Json.ofKind, check, checkIdentifier_written]
  | qualified left right ih =>
    simp [toJson, Json.ofKind, check, checkRight, Members.required_eq, checkIdentifier_written,
      Checked.combine, ih]

end EntityName

theorem Literal.checkRecord_toDocument (value : Literal) :
    checkRecord value.toDocument = .valid value := by
  simp [toDocument, Json.ofKind, checkRecord, checkMembers_toJson, Checked.combine]

theorem Json.checkFlag_ofFlag (flag : Option Bool) :
    (Json.ofFlag flag).checkFlag = .valid flag := by
  cases flag <;> rfl

/-- A type expression that is written out is an object, so it is not null. -/
theorem TypeExpr.checkOrNull_toJson {type : TypeExpr}
    (h : TypeExpr.check type.toJson = .valid type) :
    TypeExpr.checkOrNull type.toJson = .valid (some type) := by
  rw [TypeExpr.checkOrNull, h]
  · rfl
  · cases type <;> simp [TypeExpr.toJson, Json.ofKind]

mutual

theorem TypeExpr.check_toJson : (type : TypeExpr) → TypeExpr.check type.toJson = .valid type
  | .string | .number | .boolean | .symbol | .function => by
    simp [TypeExpr.toJson, Json.ofKind, TypeExpr.check]
  | .reference name arguments => by
    have harguments := Json.checkList_of_forall₂ (TypeExpr.check_listToJson arguments)
    simp [TypeExpr.toJson, Json.ofKind, TypeExpr.check, Members.required_eq, Members.optional_eq,
      EntityName.check_toJson, harguments]
  | .array element => by
    have helement := TypeExpr.check_toJson element
    simp [TypeExpr.toJson, Json.ofKind, TypeExpr.check, Members.required_eq, helement]
  | .literal value => by
    simp [TypeExpr.toJson, Json.ofKind, TypeExpr.check, Members.required_eq,
      Literal.checkRecord_toDocument]
  | .object members => by
    have hmembers := Json.checkList_of_forall₂ (Member.check_listToJson members)
    simp [TypeExpr.toJson, Json.ofKind, TypeExpr.check, Members.optional_eq, hmembers]
  | .union types | .intersection types => by
    have htypes := Json.checkList_of_forall₂ (TypeExpr.check_listToJson types)
    simp [TypeExpr.toJson, Json.ofKind, TypeExpr.check, Members.optional_eq, htypes]
  | .parenthesized inner => by
    have hinner := TypeExpr.check_toJson inner
    simp [TypeExpr.toJson, Json.ofKind, TypeExpr.check, Members.required_eq, hinner]
  | .other description => by
    simp [TypeExpr.toJson, Json.ofKind, TypeExpr.check, Members.optional_eq]

theorem TypeExpr.check_listToJson : (types : List TypeExpr) →
    List.Forall₂ (fun j t => TypeExpr.check j = .valid t) (TypeExpr.listToJson types) types
  | [] => .nil
  | type :: types => .cons (TypeExpr.check_toJson type) (TypeExpr.check_listToJson types)

theorem Member.check_toJson : (member : Member) → Member.check member.toJson = .valid member
  | .property signature => by
    obtain ⟨members, hjson, hkind, -, hcheck⟩ := Property.isWritten signature
    simp [Member.toJson, hjson, Member.check, hkind, hcheck]
  | .index none => by
    simp [Member.toJson, Json.ofKind, Member.check, Members.optional_eq, TypeExpr.checkOrNull]
  | .index (some type) => by
    have htype := TypeExpr.checkOrNull_toJson (TypeExpr.check_toJson type)
    simp [Member.toJson, Json.ofKind, Member.check, Members.optional_eq, htype]
  | .method key => by
    simp [Member.toJson, Json.ofKind, Member.check, Members.required_eq, PropertyKey.check_toJson]

theorem Member.check_listToJson : (members : List Member) →
    List.Forall₂ (fun j m => Member.check j = .valid m) (Member.listToJson members) members
  | [] => .nil
  | member :: members => .cons (Member.check_toJson member) (Member.check_listToJson members)

/-- The members of a signature that is written out, among members and alone. -/
theorem Property.isWritten : (p : Property) → ∃ members, p.toJson = .object members ∧
    Members.kind members = .ok "property" ∧ Members.fixedKind members "property" = .valid () ∧
    Property.checkMembers members = .valid p
  | .mk key none optional => by
    refine ⟨_, rfl, Members.kind_member _ _ (by simp), Members.fixedKind_member _ _ (by simp), ?_⟩
    simp [Property.checkMembers, Members.required_eq, Members.optional_eq, PropertyKey.check_toJson,
      TypeExpr.checkOrNull, Json.checkFlag_ofFlag]
  | .mk key (some type) optional => by
    have htype := TypeExpr.checkOrNull_toJson (TypeExpr.check_toJson type)
    refine ⟨_, rfl, Members.kind_member _ _ (by simp), Members.fixedKind_member _ _ (by simp), ?_⟩
    simp [Property.checkMembers, Members.required_eq, Members.optional_eq, PropertyKey.check_toJson,
      Json.checkFlag_ofFlag, htype]

end

theorem Property.check_toJson (p : Property) : Property.check p.toJson = .valid p := by
  obtain ⟨members, hjson, -, hkind, hcheck⟩ := Property.isWritten p
  rw [hjson, Property.check, hkind, hcheck]
  rfl

/-- Signatures that are written out check as themselves, in order. -/
theorem Property.checkList_toJson (properties : List Property) :
    Property.checkList (.array (properties.map Property.toJson)) = .valid properties :=
  Json.checkList_of_forall₂ <| List.forall₂_map_left_iff.mpr <|
    List.forall₂_same.mpr fun p _ => Property.check_toJson p

end PropValidators
