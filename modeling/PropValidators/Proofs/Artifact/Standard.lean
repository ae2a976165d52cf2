import PropValidators.Artifact
import PropValidators.Proofs.Conversion.Literals
import PropValidators.Proofs.Document.TypeExpr
import PropValidators.Proofs.Json.Standard
/-!
Which converted props are stored as standard JSON: those whose literals are all finite. A literal
that is infinite or not a number is written as a word that standard JSON does not have.
-/
namespace PropValidators

namespace Literal

def isFinite : Literal → Bool
  | float x => x.isFinite
  | _ => true

@[simp] theorem isFinite_toJson (value : Literal) : value.toJson.isFinite = value.isFinite := by
  cases value <;> rfl

end Literal

namespace Json

@[simp] theorem isFinite_array (items : List Json) :
    (array items).isFinite = itemsAreFinite items := rfl

@[simp] theorem isFinite_object (members : List (JoinedText × Json)) :
    (object members).isFinite = membersAreFinite members := rfl

@[simp] theorem isFinite_string (t : JoinedText) : (Json.string t).isFinite = true := rfl

@[simp] theorem isFinite_ofString (s : String) : (Json.ofString s).isFinite = true := rfl

@[simp] theorem itemsAreFinite_cons (item : Json) (items : List Json) :
    itemsAreFinite (item :: items) = (item.isFinite && itemsAreFinite items) := rfl

@[simp] theorem membersAreFinite_nil : membersAreFinite [] = true := rfl

@[simp] theorem membersAreFinite_member (name : String) (value : Json) (members : Members) :
    membersAreFinite (member name value :: members) =
      (value.isFinite && membersAreFinite members) := rfl

@[simp] theorem isFinite_ofKind (kind : String) (members : Members) :
    (Json.ofKind kind members).isFinite = membersAreFinite members := by
  simp [Json.ofKind]

end Json

@[simp] theorem PropertyKey.isFinite_toJson (key : PropertyKey) :
    key.toJson.isFinite = key.literals.all Literal.isFinite := by
  cases key with
  | identifier name => simp [toJson, literals]
  | literal value => simp [toJson, Literal.toDocument, literals]

mutual

theorem Validator.isFinite_toJson : (v : Validator) →
    v.toJson.isFinite = v.literals.all Literal.isFinite
  | .member name => by simp [Validator.toJson, Validator.literals]
  | .call factory arguments => by
    simp [Validator.toJson, Validator.literals, Argument.isFinite_listToJson arguments]
  | .required v => by simp [Validator.toJson, Validator.literals, Validator.isFinite_toJson v]

theorem Argument.isFinite_listToJson : (arguments : List Argument) →
    Json.itemsAreFinite (Argument.listToJson arguments) =
      (Argument.listLiterals arguments).all Literal.isFinite
  | [] => rfl
  | .validator v :: arguments => by
    simp [Argument.listToJson, Argument.toJson, Argument.listLiterals,
      Validator.isFinite_toJson v, Argument.isFinite_listToJson arguments]
  | .array elements :: arguments => by
    simp [Argument.listToJson, Argument.toJson, Argument.listLiterals,
      Element.isFinite_listToJson elements, Argument.isFinite_listToJson arguments]
  | .object properties :: arguments => by
    simp [Argument.listToJson, Argument.toJson, Argument.listLiterals,
      Assignment.isFinite_listToJson properties, Argument.isFinite_listToJson arguments]

theorem Element.isFinite_listToJson : (elements : List Element) →
    Json.itemsAreFinite (Element.listToJson elements) =
      (Element.listLiterals elements).all Literal.isFinite
  | [] => rfl
  | .validator v :: elements => by
    simp [Element.listToJson, Element.toJson, Element.listLiterals,
      Validator.isFinite_toJson v, Element.isFinite_listToJson elements]
  | .literal value :: elements => by
    simp [Element.listToJson, Element.toJson, Element.listLiterals, Literal.toDocument,
      Element.isFinite_listToJson elements]

theorem Assignment.isFinite_listToJson : (assignments : List Assignment) →
    Json.itemsAreFinite (Assignment.listToJson assignments) =
      (Assignment.listLiterals assignments).all Literal.isFinite
  | [] => rfl
  | .mk key value :: assignments => by
    simp [Assignment.listToJson, Assignment.toJson, Assignment.listLiterals,
      Validator.isFinite_toJson value, Assignment.isFinite_listToJson assignments, Bool.and_assoc]

end

namespace Artifact

theorem isFinite_document (props : List Assignment) : (document props).isFinite =
    (Assignment.listLiterals props).all Literal.isFinite := by
  simp [document, Assignment.isFinite_listToJson]

/-- What is serialized is standard JSON exactly if every literal in it is finite. -/
theorem isStandard_serialize_iff (props : List Assignment) : Json.IsStandard (serialize props) ↔
    ∀ value ∈ Assignment.listLiterals props, value.isFinite = true := by
  rw [serialize, Json.isStandard_compact_iff, isFinite_document, List.all_eq_true]

/-- What is serialized is an object with the members `v` and `props`, and nothing else. -/
theorem serialize_eq (props : List Assignment) : serialize props =
    "\x7b" ++ r#""v":"1","props":"# ++ (Json.array (Assignment.listToJson props)).compact ++
      "\x7d" := by
  refine String.toList_inj.mp ?_
  simp [serialize, document, formatVersion, Json.compact, Json.print, Json.printMembers,
    Json.member, Json.ofString, Json.literal, Json.escape, Text.ofString, Text.ofChars]

/-- For every request, setting and selection, the converted props are stored as an object with the
members `v` and `props`. It is standard JSON exactly if every literal in the converted props is
finite, so it is for every request whose literals are. -/
theorem standard_iff_literals_finite (request : Request) (setting : Setting)
    (names : List Text) :
    let props := (convertSelection setting request.groups names).value
    (Json.IsStandard (serialize props) ↔
      ∀ value ∈ Assignment.listLiterals props, value.isFinite = true) ∧
    ((∀ value ∈ request.literals, value.isFinite = true) → Json.IsStandard (serialize props)) ∧
    ∃ array, serialize props = "\x7b" ++ r#""v":"1","props":"# ++ array ++ "\x7d" ∧
      (Json.IsStandard (serialize props) → Json.IsStandard array) := by
  intro props
  have hiff := isStandard_serialize_iff props
  refine ⟨hiff, fun h => ?_, _, serialize_eq props, fun h => ?_⟩
  · exact hiff.mpr fun value hvalue =>
      h value (literals_convertSelection request.groups names hvalue)
  · rw [Json.isStandard_compact_iff, Json.isFinite_array, Assignment.isFinite_listToJson,
      List.all_eq_true]
    exact hiff.mp h

/-- The choice between a string and a negative zero is stored as standard JSON. -/
theorem finite_choice_stored_as_standard :
    let zero : Literal := .float (.finite true .zero)
    let choice : TypeExpr := .union [.literal (.string "none"), .literal zero]
    let request : Request := ⟨[("P", [.mk (.identifier "gap") (some choice) none])], [], none⟩
    Json.IsStandard
      (serialize (convertSelection { importName := "React" } request.groups ["P"]).value) := by
  intro zero choice request
  have hfinite : ∀ value ∈ request.literals, value.isFinite = true := by decide
  let setting : Setting := { importName := "React" }
  exact (standard_iff_literals_finite request setting ["P"]).2.1 hfinite

/-- A request in standard JSON, with a key that is larger than all floating-point numbers. -/
def overflowingText : String :=
  r#"{"types":{"P":[{"key":{"kind":"value","value":1e400},"type_annotation":{"kind":"string"}}]}}"#

/-- The same request as it is read, with an infinite key. -/
def overflowingDocument : Json :=
  .object [Json.member "types" (.object [Json.member "P" (.array [.object
    [Json.member "key" (.ofKind "value" [Json.member "value" (.float (.infinite false))]),
     Json.member "type_annotation" (.ofKind "string" [])]])])]

theorem isStandard_overflowingText : Json.IsStandard overflowingText := by
  have hnumber : Json.Derives .value "1e400".toList := by
    have hread : Json.unsigned? false "1e400".toList =
        some (.float (.ofDecimal false 1 400), []) := rfl
    exact .number (.inl (Json.isUnsigned_of_read hread))
  have hkey := Json.Derives.object <| .moreMembers
    (Json.derives_member (.ofString "kind") (Json.derives_print (.ofString "value") rfl))
    (.lastMember (Json.derives_member (.ofString "value") hnumber))
  have hsignature := Json.Derives.object <| .moreMembers
    (Json.derives_member (.ofString "key") hkey)
    (.lastMember (Json.derives_member (.ofString "type_annotation")
      (Json.derives_print (.ofKind "string" []) rfl)))
  have hgroups := Json.Derives.object <| .lastMember <|
    Json.derives_member (.ofString "P") (.array (.lastItem hsignature.text_of_value))
  have htext := (Json.Derives.object <| .lastMember <|
    Json.derives_member (.ofString "types") hgroups).text_of_value
  simpa [Json.IsStandard, overflowingText, Json.ofKind, Json.member, Json.ofString, Json.print,
    Json.printMembers, Json.literal, Json.escape, Text.ofString, Text.ofChars] using htext

theorem spells_overflowingText :
    Json.Spells (.text overflowingDocument) overflowingText.toList := by
  have hnumber : Json.Spells (.value (.float (.infinite false))) "1e400".toList := by
    have hvalue : Binary64.ofDecimal false 1 400 = .infinite false := by decide +kernel
    have hread : Json.unsigned? false "1e400".toList =
        some (.float (.ofDecimal false 1 400), []) := rfl
    rw [hvalue] at hread
    obtain ⟨cs, hspells, hcs⟩ := Json.spellsUnsigned_of_unsigned? hread
    rw [List.append_nil] at hcs
    exact .number (hcs ▸ hspells)
  have hkey := Json.Spells.object <| .moreMembers
    (Json.spells_member "kind" (Json.spells_print (.ofString "value")))
    (.lastMember (Json.spells_member "value" hnumber))
  have hsignature := Json.Spells.object <| .moreMembers (Json.spells_member "key" hkey)
    (.lastMember (Json.spells_member "type_annotation"
      (Json.spells_print (.ofKind "string" []))))
  have hgroups := Json.Spells.object <| .lastMember <|
    Json.spells_member "P" (.array (.lastItem hsignature.text_of_value))
  have htext := (Json.Spells.object <| .lastMember <|
    Json.spells_member "types" hgroups).text_of_value
  simpa [overflowingText, overflowingDocument, Json.ofKind, Json.member, Json.ofString,
    Json.print, Json.printMembers, Json.literal, Json.escape, Text.ofString, Text.ofChars] using
      htext

def overflowingProperty : Property :=
  .mk (.literal (.float (.infinite false))) (some .string) none

theorem check_overflowingDocument :
    Request.check overflowingDocument = .valid ⟨[("P", [overflowingProperty])], [], none⟩ := by
  let key : PropertyKey := .literal (.float (.infinite false))
  let members :=
    [Json.member "key" key.toJson, Json.member "type_annotation" TypeExpr.string.toJson]
  have hsignature : Property.check (.object members) = .valid overflowingProperty := by
    have hkind : Members.fixedKind members "property" = .valid () :=
      Members.fixedKind_eq_valid (by simp [members])
    have htype := TypeExpr.checkOrNull_toJson (TypeExpr.check_toJson .string)
    rw [Property.check, hkind]
    simp [members, Property.checkMembers, Members.required_eq, Members.optional_eq,
      PropertyKey.check_toJson key, htype, Checked.combine, overflowingProperty, key]
  have hsignatures : Property.checkList (.array [.object members]) =
      .valid [overflowingProperty] :=
    Json.checkList_of_forall₂ (.cons hsignature .nil)
  have hgroups : Groups.check (.object [Json.member "P" (.array [.object members])]) =
      .valid [("P", [overflowingProperty])] := by
    simp [Groups.check, Json.member, Groups.checkEntries, Groups.checkEntry, hsignatures,
      Checked.combine, Keyed.settled, Keyed.put]
  change Request.check (.object [Json.member "types"
    (.object [Json.member "P" (.array [.object members])])]) = _
  simp [Request.check, Members.optional_eq, hgroups]

/-- The request is accepted, and its props are stored with the word `Infinity` for their key. -/
theorem overflowing_request_stored_out_of_standard :
    Json.IsStandard overflowingText ∧
      ∃ request, Request.parse overflowingText = .valid request ∧
        ¬Json.IsStandard
          (serialize (convertSelection { importName := "React" } request.groups ["P"]).value) := by
  refine ⟨isStandard_overflowingText, ⟨[("P", [overflowingProperty])], [], none⟩, ?_, ?_⟩
  · have hadmitted : overflowingDocument.isAdmitted = true := by decide
    have hread : Json.read .unlimited overflowingText = .ok overflowingDocument :=
      Json.read_eq_ok.mpr ⟨spells_overflowingText, Json.overrun?_unlimited 0 _⟩
    rw [Request.parse, Json.readAdmitted?, hread]
    simp only [hadmitted, if_true]
    exact check_overflowingDocument
  · rw [isStandard_serialize_iff]
    decide

end Artifact

end PropValidators
