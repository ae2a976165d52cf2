import Mathlib.Data.List.Nodup
import PropValidators.Proofs.Document.Place
/-!
Faults of a document by those of its parts: the faults of an object are those of its fields in the
order of declaration, the faults of a list those of its items. So wherever a part stands, at any
depth, the faults at its path are the ones that it has alone.
-/
namespace PropValidators

/-- A fault seen from above a path. -/
def Fault.below (path : List DocumentStep) (f : Fault) : Fault := { f with path := path ++ f.path }

@[simp] theorem Fault.below_nil : Fault.below [] = id := rfl

theorem Fault.below_below (path path' : List DocumentStep) (f : Fault) :
    Fault.below path (Fault.below path' f) = Fault.below (path ++ path') f := by
  simp [below]

namespace Checked

variable {α β : Type}

@[simp] theorem faults_fmap (f : α → β) (x : Checked α) : (f <$> x).faults = x.faults :=
  faults_map f x

@[simp] theorem faults_seq (f : Checked (α → β)) (x : Checked α) :
    (f <*> x).faults = f.faults ++ x.faults :=
  faults_combine _ f x

@[simp] theorem faults_underName (name : String) (x : Checked α) :
    (x.underName name).faults = x.faults.map (Fault.below [.name name]) :=
  faults_under _ x

@[simp] theorem faults_fault (cause : FaultCause) :
    (fault cause : Checked α).faults = [⟨[], cause⟩] := rfl

theorem faults_eq_nil {x : Checked α} : x.faults = [] ↔ ∃ a, x = valid a := by
  cases x <;> simp [faults]

/-- The faults of items, each under its index from `start` on. -/
def itemFaults (check : Json → Checked α) (start : Nat) (items : List Json) : List Fault :=
  (items.zipIdx start).flatMap fun entry =>
    (check entry.1).faults.map (Fault.below [.index entry.2])

theorem faults_eachFrom (check : Json → Checked α) (start : Nat) (items : List Json) :
    (eachFrom start items fun item _ => check item).faults = itemFaults check start items := by
  induction items generalizing start with
  | nil => rfl
  | cons item items ih =>
    rw [eachFrom, faults_combine, ih, faults_under]
    rfl

theorem itemFaults_eq_nil {check : Json → Checked α} {start : Nat} {items : List Json} :
    itemFaults check start items = [] ↔ ∀ item ∈ items, ∃ a, check item = valid a := by
  have hmap : (∀ item ∈ (items.zipIdx start).map Prod.fst, ∃ a, check item = valid a) ↔
      ∀ entry ∈ items.zipIdx start, ∃ a, check entry.1 = valid a := List.forall_mem_map
  rw [List.zipIdx_map_fst] at hmap
  simp only [itemFaults, List.flatMap_eq_nil_iff, List.map_eq_nil_iff, faults_eq_nil, hmap]

end Checked

namespace Json

variable {α : Type}

/-- The faults of a list: those of its items, each under its index, or that it is none. -/
def listFaults (check : Json → Checked α) : Json → List Fault
  | array items => Checked.itemFaults check 0 items
  | _ => [⟨[], .notList⟩]

theorem faults_checkList (check : Json → Checked α) (j : Json) :
    (j.checkList fun item _ => check item).faults = j.listFaults check := by
  cases j with
  | array items => exact Checked.faults_eachFrom check 0 items
  | _ => rfl

theorem listFaults_eq_nil {check : Json → Checked α} {j : Json} :
    j.listFaults check = [] ↔
      ∃ items, j = array items ∧ ∀ item ∈ items, ∃ a, check item = .valid a := by
  cases j with
  | array items => simp [listFaults, Checked.itemFaults_eq_nil]
  | _ => simp [listFaults]

end Json

/-! ### Faults of fields -/

namespace Field

/-- The faults of what stands in a field that has no fields below it. The kind of a record is the
one that it has by default, and the kind of a variant has been looked at before. -/
def leafFaults (field : Field) (j : Json) : List Fault :=
  match field.name, field.default? with
  | "kind", some (.string expected) =>
    match j with
    | .string t => if t = expected then [] else [⟨[], .kindMismatch⟩]
    | _ => [⟨[], .kindMismatch⟩]
  | "kind", _ => []
  | "value", _ => (Literal.check j).faults
  | "optional", _ => j.checkFlag.faults
  | _, _ => j.checkText.faults

/-- The faults of what stands in a field. -/
def partFaults (field : Field) (j : Json) : List Fault :=
  match field.place with
  | .leaf => field.leafFaults j
  | p => (p.check j).faults

/-- The faults of a field, seen from inside it. -/
def innerFaults (field : Field) (members : Members) : List Fault :=
  match members.last? field.name with
  | some j => field.partFaults j
  | none => if field.default?.isSome then [] else [⟨[], .missing⟩]

/-- The faults of a field of an object with these members. -/
def faults (field : Field) (members : Members) : List Fault :=
  (field.innerFaults members).map (Fault.below [.name field.name])

theorem partFaults_of_place {field : Field} (h : field.place ≠ .leaf) (j : Json) :
    field.partFaults j = (field.place.check j).faults := by
  obtain ⟨name, place, default?⟩ := field
  cases place <;> first | rfl | exact absurd rfl h

end Field

namespace Members

variable {α : Type} (members : Members) (name : String)

theorem faults_required {place : Place} {check : Json → Checked α}
    (h : ∀ j, (check j).faults = Field.partFaults ⟨name, place, none⟩ j) :
    (members.required name fun j _ => check j).faults =
      Field.faults ⟨name, place, none⟩ members := by
  rw [required_eq, Checked.faults_underName, Field.faults, Field.innerFaults]
  cases members.last? name with
  | some j => rw [h]
  | none => rfl

theorem faults_optional {place : Place} {default : α} {d : Json} {check : Json → Checked α}
    (h : ∀ j, (check j).faults = Field.partFaults ⟨name, place, some d⟩ j) :
    (members.optional name default fun j _ => check j).faults =
      Field.faults ⟨name, place, some d⟩ members := by
  rw [optional_eq, Field.faults, Field.innerFaults]
  cases members.last? name with
  | some j =>
    dsimp only
    rw [Checked.faults_underName, h]
  | none => rfl

theorem faults_fixedKind (kind : String) :
    (members.fixedKind kind).faults = (Field.fixedKind kind).faults members := by
  rw [fixedKind_eq_getD, Checked.faults_underName, Field.faults, Field.innerFaults]
  congr 1
  cases h : members.last? (Field.fixedKind kind).name with
  | none =>
    rw [show members.last? "kind" = none from h]
    simp [Json.ofString, Field.fixedKind]
  | some j =>
    rw [show members.last? "kind" = some j from h]
    cases j with
    | string t =>
      simp only [Option.getD_some, Field.partFaults, Field.fixedKind, Field.leafFaults,
        Json.ofString]
      split <;> simp
    | _ => rfl

theorem faults_kind {members : Members} {kind : String} (h : members.kind = .ok kind) :
    Field.kind.faults members = [] := by
  have hthere : members.last? "kind" ≠ none := by
    intro hnone
    rw [Members.kind, hnone] at h
    cases h
  obtain ⟨j, hj⟩ := Option.ne_none_iff_exists'.mp hthere
  rw [Field.faults, Field.innerFaults, show members.last? Field.kind.name = some j from hj]
  rfl

end Members

/-! ### Faults of objects -/

namespace Place

/-- What stands in the path between an object and its fields: the kind, if it tells a variant
apart. -/
def tag (p : Place) (members : Members) : List DocumentStep :=
  match p with
  | leaf | list _ | property | right | literal | assignment | groups => []
  | typeExpr | annotation | member | entityName | key | validator | argument | element =>
    match members.kind with
    | .ok kind => [.name kind]
    | .error _ => []

end Place

section Objects

variable {members : Members} {kind : String} {fields : List Field}

/-! A field that has to be there, by the check of its place. -/

theorem faults_nameField (name : String) :
    (members.required name fun j _ => EntityName.check j).faults =
      Field.faults ⟨name, .entityName, none⟩ members :=
  members.faults_required name fun _ => rfl

theorem faults_rightField (name : String) :
    (members.required name fun j _ => EntityName.checkRight j).faults =
      Field.faults ⟨name, .right, none⟩ members :=
  members.faults_required name fun _ => rfl

theorem faults_keyField (name : String) :
    (members.required name fun j _ => PropertyKey.check j).faults =
      Field.faults ⟨name, .key, none⟩ members :=
  members.faults_required name fun _ => rfl

theorem faults_literalField (name : String) :
    (members.required name fun j _ => Literal.checkRecord j).faults =
      Field.faults ⟨name, .literal, none⟩ members :=
  members.faults_required name fun _ => rfl

theorem faults_typeField (name : String) :
    (members.required name fun j _ => TypeExpr.check j).faults =
      Field.faults ⟨name, .typeExpr, none⟩ members :=
  members.faults_required name fun _ => rfl

theorem faults_validatorField (name : String) :
    (members.required name fun j _ => Validator.check j).faults =
      Field.faults ⟨name, .validator, none⟩ members :=
  members.faults_required name fun _ => rfl

theorem faults_identifier :
    (EntityName.checkIdentifier members).faults = Field.faults ⟨"name", .leaf, none⟩ members :=
  members.faults_required "name" fun _ => rfl

theorem faults_value :
    (Literal.checkMembers members).faults = Field.faults ⟨"value", .leaf, none⟩ members :=
  members.faults_required "value" fun _ => rfl

/-! A field that may be left out. -/

theorem faults_annotationField (name : String) :
    (members.optional name none fun j _ => TypeExpr.checkOrNull j).faults =
      Field.faults ⟨name, Place.annotation, some .null⟩ members :=
  members.faults_optional name fun _ => rfl

theorem faults_listField (name : String) (item : Place) :
    (members.optional name [] fun j _ => j.checkList fun j _ => item.check j).faults =
      (Field.items name item).faults members :=
  members.faults_optional name fun _ => rfl

theorem faults_typesField (name : String) :
    (members.optional name [] fun j _ => j.checkList fun j _ => TypeExpr.check j).faults =
      (Field.items name .typeExpr).faults members :=
  faults_listField name .typeExpr

theorem faults_membersField (name : String) :
    (members.optional name [] fun j _ => j.checkList fun j _ => Member.check j).faults =
      (Field.items name .member).faults members :=
  faults_listField name .member

theorem faults_argumentsField (name : String) :
    (members.optional name [] fun j _ => j.checkList fun j _ => Argument.check j).faults =
      (Field.items name .argument).faults members :=
  faults_listField name .argument

theorem faults_elementsField (name : String) :
    (members.optional name [] fun j _ => j.checkList fun j _ => Element.check j).faults =
      (Field.items name .element).faults members :=
  faults_listField name .element

theorem faults_assignmentsField (name : String) :
    (members.optional name [] fun j _ => j.checkList fun j _ => Assignment.check j).faults =
      (Field.items name .assignment).faults members :=
  faults_listField name .assignment

theorem faults_flag :
    (members.optional "optional" none fun j _ => j.checkFlag).faults =
      Field.faults ⟨"optional", .leaf, some .null⟩ members :=
  members.faults_optional "optional" fun _ => rfl

theorem faults_description :
    (members.optional "description" ("" : JoinedText) fun j _ => j.checkText).faults =
      Field.faults ⟨"description", .leaf, some (.ofString "")⟩ members :=
  members.faults_optional "description" fun _ => rfl

attribute [local simp] faults_nameField faults_rightField faults_keyField faults_literalField
  faults_typeField faults_validatorField faults_identifier faults_value faults_annotationField
  faults_typesField faults_membersField faults_argumentsField faults_elementsField
  faults_assignmentsField faults_flag faults_description

/-! One lemma for each check: the faults are those of the fields of the kind, in order. -/

theorem TypeExpr.faults_check (hkind : members.kind = .ok kind)
    (hmem : (kind, fields) ∈ Place.typeFields) :
    (TypeExpr.check (.object members)).faults =
      (fields.flatMap (·.faults members)).map (Fault.below [.name kind]) := by
  simp only [Place.typeFields, List.mem_cons, List.not_mem_nil, or_false, Prod.mk.injEq] at hmem
  rcases hmem with ⟨rfl, rfl⟩ | ⟨rfl, rfl⟩ | ⟨rfl, rfl⟩ | ⟨rfl, rfl⟩ | ⟨rfl, rfl⟩ | ⟨rfl, rfl⟩ |
    ⟨rfl, rfl⟩ | ⟨rfl, rfl⟩ | ⟨rfl, rfl⟩ | ⟨rfl, rfl⟩ | ⟨rfl, rfl⟩ | ⟨rfl, rfl⟩ | ⟨rfl, rfl⟩
  all_goals simp [TypeExpr.check, hkind]

theorem Property.faults_checkMembers :
    (Property.checkMembers members).faults =
      Place.propertyFields.flatMap (·.faults members) := by
  simp [Property.checkMembers, Place.propertyFields]

theorem Member.faults_check (hkind : members.kind = .ok kind)
    (hmem : (kind, fields) ∈ Place.memberFields) :
    (Member.check (.object members)).faults =
      (fields.flatMap (·.faults members)).map (Fault.below [.name kind]) := by
  simp only [Place.memberFields, List.mem_cons, List.not_mem_nil, or_false, Prod.mk.injEq] at hmem
  rcases hmem with ⟨rfl, rfl⟩ | ⟨rfl, rfl⟩ | ⟨rfl, rfl⟩
  all_goals simp [Member.check, hkind, Property.faults_checkMembers]

theorem EntityName.faults_check (hkind : members.kind = .ok kind)
    (hmem : (kind, fields) ∈ Place.nameFields) :
    (EntityName.check (.object members)).faults =
      (fields.flatMap (·.faults members)).map (Fault.below [.name kind]) := by
  simp only [Place.nameFields, List.mem_cons, List.not_mem_nil, or_false, Prod.mk.injEq] at hmem
  rcases hmem with ⟨rfl, rfl⟩ | ⟨rfl, rfl⟩
  all_goals simp [EntityName.check, hkind, Place.identifierFields]

theorem PropertyKey.faults_check (hkind : members.kind = .ok kind)
    (hmem : (kind, fields) ∈ Place.keyFields) :
    (PropertyKey.check (.object members)).faults =
      (fields.flatMap (·.faults members)).map (Fault.below [.name kind]) := by
  simp only [Place.keyFields, List.mem_cons, List.not_mem_nil, or_false, Prod.mk.injEq] at hmem
  rcases hmem with ⟨rfl, rfl⟩ | ⟨rfl, rfl⟩
  all_goals simp [PropertyKey.check, hkind, Place.identifierFields, Place.literalFields]

theorem Validator.faults_checkKind? (members : Members)
    (hmem : (kind, fields) ∈ Place.validatorFields) :
    ∃ checked, Validator.checkKind? kind members = some checked ∧ checked.faults =
      (fields.flatMap (·.faults members)).map (Fault.below [.name kind]) := by
  have hname : (members.required "name" fun j _ => j.checkText).faults =
      Field.faults ⟨"name", .leaf, none⟩ members := faults_identifier
  have hfactory : (members.required "factory" fun j _ => j.checkText).faults =
      Field.faults ⟨"factory", .leaf, none⟩ members :=
    members.faults_required "factory" fun _ => rfl
  simp only [Place.validatorFields, List.mem_cons, List.not_mem_nil, or_false,
    Prod.mk.injEq] at hmem
  rcases hmem with ⟨rfl, rfl⟩ | ⟨rfl, rfl⟩ | ⟨rfl, rfl⟩
  all_goals
    rw [Validator.checkKind?]
    refine ⟨_, rfl, ?_⟩
    simp [hname, hfactory]

theorem Validator.faults_check (hkind : members.kind = .ok kind)
    (hmem : (kind, fields) ∈ Place.validatorFields) :
    (Validator.check (.object members)).faults =
      (fields.flatMap (·.faults members)).map (Fault.below [.name kind]) := by
  obtain ⟨checked, hchecked, hfaults⟩ := Validator.faults_checkKind? members hmem
  simp only [Validator.check, hkind, hchecked, Option.getD_some, hfaults]

theorem Argument.faults_check (hkind : members.kind = .ok kind)
    (hmem : (kind, fields) ∈ Place.argumentFields) :
    (Argument.check (.object members)).faults =
      (fields.flatMap (·.faults members)).map (Fault.below [.name kind]) := by
  simp only [Place.argumentFields, List.mem_cons, Prod.mk.injEq] at hmem
  rcases hmem with ⟨rfl, rfl⟩ | ⟨rfl, rfl⟩ | hmem
  · simp [Argument.check, hkind]
  · simp [Argument.check, hkind]
  · have hother : ∀ row ∈ Place.validatorFields,
        row.1 ≠ "array_literal" ∧ row.1 ≠ "object_literal" := by decide
    obtain ⟨harray, hobject⟩ := hother _ hmem
    obtain ⟨checked, hchecked, hfaults⟩ := Validator.faults_checkKind? members hmem
    simp only [Argument.check, hkind, hchecked, Option.map_some, Option.getD_some,
      Checked.faults_fmap, hfaults]

theorem Element.faults_check (hkind : members.kind = .ok kind)
    (hmem : (kind, fields) ∈ Place.elementFields) :
    (Element.check (.object members)).faults =
      (fields.flatMap (·.faults members)).map (Fault.below [.name kind]) := by
  simp only [Place.elementFields, List.mem_cons, Prod.mk.injEq] at hmem
  rcases hmem with ⟨rfl, rfl⟩ | hmem
  · simp [Element.check, hkind, Place.literalFields]
  · have hother : ∀ row ∈ Place.validatorFields, row.1 ≠ "value" := by decide
    have hvalue := hother _ hmem
    obtain ⟨checked, hchecked, hfaults⟩ := Validator.faults_checkKind? members hmem
    simp only [Element.check, hkind, hchecked, Option.map_some, Option.getD_some,
      Checked.faults_fmap, hfaults]

/-- The faults of an object are those of the fields that it has in its place, in their order. -/
theorem Place.faults_object {p : Place} (hfields : p.fields? members = some fields) :
    (p.check (.object members)).faults =
      (fields.flatMap (·.faults members)).map (Fault.below (p.tag members)) := by
  have hvariant {table : List (String × List Field)}
      (hfields : variant? table members = some fields) : ∃ kind others,
      members.kind = .ok kind ∧ (kind, others) ∈ table ∧
        fields.flatMap (·.faults members) = others.flatMap (·.faults members) := by
    obtain ⟨kind, others, hkind, hmem, rfl⟩ := exists_of_variant? hfields
    refine ⟨kind, others, hkind, hmem, ?_⟩
    rw [List.flatMap_cons, Members.faults_kind hkind, List.nil_append]
  cases p with
  | leaf | list | groups => cases hfields
  | typeExpr =>
    obtain ⟨kind, others, hkind, hmem, heq⟩ := hvariant hfields
    simp only [check, tag, hkind, heq, TypeExpr.faults_check hkind hmem]
  | annotation =>
    obtain ⟨kind, others, hkind, hmem, heq⟩ := hvariant hfields
    simp only [check, tag, hkind, heq, TypeExpr.checkOrNull_object, Checked.faults_fmap,
      TypeExpr.faults_check hkind hmem]
  | member =>
    obtain ⟨kind, others, hkind, hmem, heq⟩ := hvariant hfields
    simp only [check, tag, hkind, heq, Member.faults_check hkind hmem]
  | entityName =>
    obtain ⟨kind, others, hkind, hmem, heq⟩ := hvariant hfields
    simp only [check, tag, hkind, heq, EntityName.faults_check hkind hmem]
  | key =>
    obtain ⟨kind, others, hkind, hmem, heq⟩ := hvariant hfields
    simp only [check, tag, hkind, heq, PropertyKey.faults_check hkind hmem]
  | validator =>
    obtain ⟨kind, others, hkind, hmem, heq⟩ := hvariant hfields
    simp only [check, tag, hkind, heq, Validator.faults_check hkind hmem]
  | argument =>
    obtain ⟨kind, others, hkind, hmem, heq⟩ := hvariant hfields
    simp only [check, tag, hkind, heq, Argument.faults_check hkind hmem]
  | element =>
    obtain ⟨kind, others, hkind, hmem, heq⟩ := hvariant hfields
    simp only [check, tag, hkind, heq, Element.faults_check hkind hmem]
  | property =>
    cases hfields
    simp [check, tag, Property.check, Members.faults_fixedKind, Property.faults_checkMembers]
  | right =>
    cases hfields
    simp [check, tag, EntityName.checkRight, Members.faults_fixedKind, Place.identifierFields]
  | literal =>
    cases hfields
    simp [check, tag, Literal.checkRecord, Members.faults_fixedKind, Place.literalFields]
  | assignment =>
    cases hfields
    simp [check, tag, Assignment.check]

end Objects

end PropValidators
