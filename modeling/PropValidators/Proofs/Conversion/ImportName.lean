import Mathlib.Data.List.Find
import PropValidators.Proofs.Conversion.Setting
import PropValidators.Proofs.Reference
/-!
The name that the framework is imported as is only a name: conversion under it is conversion under
the framework's own name, once the resolved names are rewritten to that.
-/
namespace PropValidators

open ReferenceRule

/-- A name with the framework's own name in place of the import name, if it is one of the
framework's types under that; any other name as it is. -/
def underOwnName (importName name : Text) : Text :=
  match frameworkTypes.find? fun type => name = importName ++ "." ++ type with
  | some type => "React." ++ type
  | none => name

variable {importName name type : Text}

theorem underOwnName_cases (importName name : Text) :
    (∃ type ∈ frameworkTypes, name = importName ++ "." ++ type ∧
      underOwnName importName name = "React." ++ type) ∨
    ((∀ type ∈ frameworkTypes, name ≠ importName ++ "." ++ type) ∧
      underOwnName importName name = name) := by
  unfold underOwnName
  split
  · next type hfind =>
    have hname := List.find?_some hfind
    exact .inl ⟨type, List.mem_of_find?_eq_some hfind, of_decide_eq_true hname, rfl⟩
  · next hfind =>
    refine .inr ⟨fun type htype heq => ?_, rfl⟩
    exact List.find?_eq_none.mp hfind type htype (decide_eq_true heq)

theorem dotless_of_mem (h : type ∈ frameworkTypes) : .char '.' ∉ type :=
  dotless_frameworkTypes type (List.mem_cons_of_mem _ h)

/-- What stands under the import name stands for itself and no other type. -/
theorem isFrameworkType_qualified_iff {other : Text} (h : .char '.' ∉ type)
    (hother : .char '.' ∉ other) :
    isFrameworkType (importName ++ "." ++ other) type importName = true ↔ other = type := by
  constructor
  · intro hname
    have hlast := lastPart_of_isFrameworkType h hname
    rwa [lastPart_qualified hother] at hlast
  · rintro rfl
    exact isFrameworkType_qualified importName other

theorem isFrameworkType_underOwnName (h : type ∈ frameworkTypes) :
    isFrameworkType (underOwnName importName name) type "React" =
      isFrameworkType name type importName := by
  rcases underOwnName_cases importName name with ⟨other, hother, rfl, heq⟩ | ⟨hne, heq⟩
  · have hown :
        isFrameworkType (("React" : Text) ++ "." ++ other) type "React" = true ↔ other = type :=
      isFrameworkType_qualified_iff (dotless_of_mem h) (dotless_of_mem hother)
    -- Before and after, the name stands for the type that it is rewritten for and no other one.
    rw [heq, Bool.eq_iff_iff,
      isFrameworkType_qualified_iff (dotless_of_mem h) (dotless_of_mem hother)]
    exact hown
  · have hown : ("React" : Text) ++ "." ++ type = "React." ++ type := rfl
    simp only [heq, isFrameworkType, hown, hne type h, decide_false, Bool.or_false, Bool.or_assoc,
      Bool.or_self]

theorem lastPart_underOwnName (importName name : Text) :
    lastPart (underOwnName importName name) = lastPart name := by
  rcases underOwnName_cases importName name with ⟨type, htype, rfl, heq⟩ | ⟨-, heq⟩
  · rw [heq, lastPart_qualified (dotless_of_mem htype)]
    exact lastPart_qualified (dotless_of_mem htype) "React"
  · rw [heq]

/-- The element type of the syntax is not looked for under the import name. -/
theorem isElement_underOwnName (importName name : Text) :
    isFrameworkType (underOwnName importName name) "Element" "JSX" =
      isFrameworkType name "Element" "JSX" := by
  rcases underOwnName_cases importName name with ⟨type, htype, rfl, heq⟩ | ⟨-, heq⟩
  · have hlast := lastPart_underOwnName importName (importName ++ "." ++ type)
    have helement : ("Element" : Text) ∉ frameworkTypes := by decide
    have hfalse {written : Text} (h : lastPart written = type) :
        isFrameworkType written "Element" "JSX" = false := by
      rw [Bool.eq_false_iff]
      intro hwritten
      rw [lastPart_of_isFrameworkType (by decide) hwritten] at h
      exact helement (h ▸ htype)
    rw [lastPart_qualified (dotless_of_mem htype)] at hlast
    rw [hfalse hlast, hfalse (lastPart_qualified (dotless_of_mem htype) importName)]
  · rw [heq]

theorem any_underOwnName {types : List Text} (htypes : types ⊆ frameworkTypes) :
    types.any (isFrameworkType (underOwnName importName name) · "React") =
      types.any (isFrameworkType name · importName) := by
  rw [Bool.eq_iff_iff, List.any_eq_true, List.any_eq_true]
  refine exists_congr fun type => and_congr_right fun htype => ?_
  rw [isFrameworkType_underOwnName (htypes htype)]

theorem covers_underOwnName {rule : ReferenceRule} (hrule : rule ∈ ReferenceRule.all) :
    rule.covers (underOwnName importName name) "React" = rule.covers name importName := by
  have hending {ending : Text} (h : .char '.' ∉ ending) :
      ending.isSuffixOf (underOwnName importName name) = ending.isSuffixOf name := by
    rw [← isSuffixOf_lastPart h, lastPart_underOwnName, isSuffixOf_lastPart h]
  simp only [ReferenceRule.all, List.mem_cons, List.not_mem_nil, or_false] at hrule
  rcases hrule with rfl | rfl | rfl | rfl | rfl
  · exact any_underOwnName (by decide)
  · exact congrArg₂ or (isElement_underOwnName importName name) (any_underOwnName (by decide))
  · exact isFrameworkType_underOwnName (by decide)
  · exact hending (by decide)
  · exact hending (by decide)

theorem validatorOfReference_underOwnName (importName name : Text) :
    validatorOfReference (underOwnName importName name) "React" =
      validatorOfReference name importName := by
  rw [validatorOfReference, validatorOfReference,
    List.find?_congr fun rule hrule => covers_underOwnName hrule]

/-- Under any import name conversion gives what it gives under the framework's own name, when the
types of the framework among the resolved names are rewritten from the one to the other: the same
validators, the same records and the same look-ups, for types and for selections, and the same
omissions. -/
theorem import_name_is_only_a_name (importName : Text) (resolve : EntityName → Text) :
    let imported : Setting := ⟨importName, resolve⟩
    let own : Setting := ⟨"React", fun name => underOwnName importName (resolve name)⟩
    (∀ type, convert imported type = convert own type) ∧
    (∀ groups names,
      convertSelection imported groups names = convertSelection own groups names ∧
      findOmissions imported groups names = findOmissions own groups names) := by
  intro imported own
  have hagree (visits : List Visit) : imported.AgreeOn own visits :=
    fun name _ => (validatorOfReference_underOwnName importName (resolve name)).symm
  refine ⟨fun type => convert_eq_of_agreeOn (hagree _), fun groups names => ⟨?_, ?_⟩⟩
  · exact convertSelection_eq_of_agreeOn (hagree _)
  · exact findOmissions_eq_of_agreeOn (hagree _)

/-- The element type of the syntax is none of the framework's types, under whatever name that is
imported. -/
example : (validatorOfReference "R.ReactElement" "R").isSome = true ∧
    (validatorOfReference "R.Element" "R").isSome = false := by decide

end PropValidators
