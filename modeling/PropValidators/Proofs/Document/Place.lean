import PropValidators.Proofs.Document.TypeExpr
import PropValidators.Request
/-!
What the parts of a document stand for, and which fields an object has in each place. The value that
an object stands for depends on these fields alone.
-/
namespace PropValidators

/-- What a part of a document stands for. A `leaf` has no fields below it; an `annotation` is a type
expression or null, a `right` the identifier after the dot of a qualified name. -/
inductive Place where
  | leaf
  | list (item : Place)
  | typeExpr
  | annotation
  | member
  | property
  | entityName
  | right
  | key
  | literal
  | validator
  | argument
  | element
  | assignment
  | groups

/-- A field of an object, with the document of its default if it may be left out. -/
structure Field where
  name : String
  place : Place
  default? : Option Json := none

namespace Field

/-- The kind that tells a variant apart has to be there. -/
def kind : Field := ⟨"kind", .leaf, none⟩

/-- The kind of a record may be left out. -/
def fixedKind (kind : String) : Field := ⟨"kind", .leaf, some (.ofString kind)⟩

def items (name : String) (item : Place) : Field := ⟨name, .list item, some (.array [])⟩

end Field

namespace Place

abbrev Value : Place → Type
  | leaf => Json
  | list item => List item.Value
  | typeExpr => TypeExpr
  | annotation => Option TypeExpr
  | member => Member
  | property => Property
  | entityName => EntityName
  | right => JoinedText
  | key => PropertyKey
  | literal => Literal
  | validator => Validator
  | argument => Argument
  | element => Element
  | assignment => Assignment
  | groups => Groups

/-- The check of documents in a place. -/
def check : (p : Place) → Json → Checked p.Value
  | leaf => .valid
  | list item => fun j => j.checkList fun j _ => item.check j
  | typeExpr => TypeExpr.check
  | annotation => TypeExpr.checkOrNull
  | member => Member.check
  | property => Property.check
  | entityName => EntityName.check
  | right => EntityName.checkRight
  | key => PropertyKey.check
  | literal => Literal.checkRecord
  | validator => Validator.check
  | argument => Argument.check
  | element => Element.check
  | assignment => Assignment.check
  | groups => Groups.check

/-! ### Fields by kind, beside the kind itself -/

def typeFields : List (String × List Field) :=
  [("string", []), ("number", []), ("boolean", []), ("symbol", []), ("function", []),
   ("reference", [⟨"type_name", entityName, none⟩, .items "type_arguments" typeExpr]),
   ("array", [⟨"element_type", typeExpr, none⟩]),
   ("literal", [⟨"literal", literal, none⟩]),
   ("type_literal", [.items "members" member]),
   ("union", [.items "types" typeExpr]),
   ("intersection", [.items "types" typeExpr]),
   ("parenthesized", [⟨"type_annotation", typeExpr, none⟩]),
   ("other", [⟨"description", leaf, some (.ofString "")⟩])]

def propertyFields : List Field :=
  [⟨"key", key, none⟩, ⟨"type_annotation", annotation, some .null⟩, ⟨"optional", leaf, some .null⟩]

def memberFields : List (String × List Field) :=
  [("property", propertyFields), ("index", [⟨"type_annotation", annotation, some .null⟩]),
   ("method", [⟨"key", key, none⟩])]

def identifierFields : List Field := [⟨"name", leaf, none⟩]

def literalFields : List Field := [⟨"value", leaf, none⟩]

def nameFields : List (String × List Field) :=
  [("identifier", identifierFields),
   ("qualified", [⟨"left", entityName, none⟩, ⟨"right", right, none⟩])]

def keyFields : List (String × List Field) :=
  [("identifier", identifierFields), ("value", literalFields)]

def validatorFields : List (String × List Field) :=
  [("member", [⟨"name", leaf, none⟩]),
   ("call", [⟨"factory", leaf, none⟩, .items "args" argument]),
   ("required", [⟨"validator", validator, none⟩])]

def argumentFields : List (String × List Field) :=
  ("array_literal", [.items "elements" element]) ::
    ("object_literal", [.items "properties" assignment]) :: validatorFields

def elementFields : List (String × List Field) := ("value", literalFields) :: validatorFields

/-- The fields of the variant that members are of, by a table of kinds. -/
def variant? (table : List (String × List Field)) (members : Members) : Option (List Field) :=
  match members.kind with
  | .ok kind => (table.lookup kind).map (.kind :: ·)
  | .error _ => none

/-- The fields of the variant or record that an object with these members stands for in a place,
none if it can stand for neither. -/
def fields? : Place → Members → Option (List Field)
  | typeExpr, members | annotation, members => variant? typeFields members
  | member, members => variant? memberFields members
  | entityName, members => variant? nameFields members
  | key, members => variant? keyFields members
  | validator, members => variant? validatorFields members
  | argument, members => variant? argumentFields members
  | element, members => variant? elementFields members
  | property, _ => some (.fixedKind "property" :: propertyFields)
  | right, _ => some (.fixedKind "identifier" :: identifierFields)
  | literal, _ => some (.fixedKind "value" :: literalFields)
  | assignment, _ => some [⟨"key", key, none⟩, ⟨"value", validator, none⟩]
  | leaf, _ | list _, _ | groups, _ => none

theorem exists_of_variant? {table : List (String × List Field)} {members : Members}
    {fields : List Field} (h : variant? table members = some fields) :
    ∃ kind others, members.kind = .ok kind ∧ (kind, others) ∈ table ∧ fields = .kind :: others := by
  unfold variant? at h
  split at h
  · next kind hkind =>
    obtain ⟨others, hlookup, rfl⟩ := Option.map_eq_some_iff.mp h
    obtain ⟨before, after, rfl, -⟩ := List.lookup_eq_some_iff.mp hlookup
    exact ⟨kind, others, hkind, by simp, rfl⟩
  · cases h

/-- The fields of an object have different names. -/
theorem nodup_names {p : Place} {members : Members} {fields : List Field}
    (h : p.fields? members = some fields) : (fields.map Field.name).Nodup := by
  have hvariant {table : List (String × List Field)} (h : variant? table members = some fields)
      (hall : ∀ row ∈ table, ((Field.kind :: row.2).map Field.name).Nodup) :
      (fields.map Field.name).Nodup := by
    obtain ⟨kind, others, -, hmem, rfl⟩ := exists_of_variant? h
    exact hall _ hmem
  cases p with
  | leaf | list | groups => cases h
  | typeExpr | annotation | member | entityName | key | validator | argument | element =>
    exact hvariant h (by decide)
  | property | right | literal | assignment =>
    cases h
    decide

end Place

/-! ### Members that agree -/

variable {members members' : Members}

/-- A field stands for the same in two lists of members. Where it may be left out, its default
counts as written. -/
def Field.Agrees (field : Field) (members members' : Members) : Prop :=
  match field.default? with
  | none => (members'.last? field.name).map field.place.check =
      (members.last? field.name).map field.place.check
  | some d => field.place.check ((members'.last? field.name).getD d) =
      field.place.check ((members.last? field.name).getD d)

theorem Field.agrees_of_last? {field : Field}
    (h : members'.last? field.name = members.last? field.name) : field.Agrees members members' := by
  unfold Agrees
  split <;> rw [h]

theorem Checked.map_valid_inj {α : Type} {a b : Option α} :
    a.map Checked.valid = b.map Checked.valid ↔ a = b :=
  Option.map_inj_right fun _ _ h => Checked.valid.inj h

namespace Members

theorem kind_congr (h : Field.kind.Agrees members members') : members'.kind = members.kind := by
  have hkind : members'.last? "kind" = members.last? "kind" := Checked.map_valid_inj.mp h
  rw [kind, hkind, kind]

section

variable {α : Type} (members : Members) (name : String)

theorem required_eq_map (check : Json → Checked α) :
    members.required name (fun j _ => check j) =
      (((members.last? name).map check).getD (.fault .missing)).underName name := by
  rw [required_eq]
  cases members.last? name <;> rfl

/-- A member with a default is checked as if the document of its default stood for it. -/
theorem optional_eq_getD {default : α} {check : Json → Checked α} {d : Json}
    (h : check d = .valid default) :
    members.optional name default (fun j _ => check j) =
      (check ((members.last? name).getD d)).underName name := by
  rw [optional_eq]
  cases members.last? name with
  | some j => rfl
  | none => simp [h]

theorem optional_items (check : Json → Checked α) :
    members.optional name [] (fun j _ => j.checkList fun item _ => check item) =
      (((members.last? name).getD (.array [])).checkList fun item _ => check item).underName name :=
  optional_eq_getD members name rfl

theorem optional_annotation :
    members.optional name none (fun j _ => TypeExpr.checkOrNull j) =
      (TypeExpr.checkOrNull ((members.last? name).getD .null)).underName name :=
  optional_eq_getD members name (by rw [TypeExpr.checkOrNull])

theorem optional_flag :
    members.optional name none (fun j _ => j.checkFlag) =
      ((members.last? name).getD .null).checkFlag.underName name :=
  optional_eq_getD members name rfl

theorem optional_text :
    members.optional name ("" : JoinedText) (fun j _ => j.checkText) =
      ((members.last? name).getD (.ofString "")).checkText.underName name :=
  optional_eq_getD members name (Json.checkText_string "")

/-- The kind of a record, as that of a member whose default is the expected one. -/
theorem fixedKind_eq_getD (kind : String) :
    members.fixedKind kind =
      (match (members.last? "kind").getD (.ofString kind) with
        | .string t =>
          if t = (kind : JoinedText) then Checked.valid () else .fault .kindMismatch
        | _ => .fault .kindMismatch).underName "kind" := by
  unfold fixedKind optional
  split
  · next j h =>
    have hj : (members.last? "kind").getD (.ofString kind) = j := by rw [h, Option.getD_some]
    rw [hj]
    cases j <;> rfl
  · next h =>
    rw [h]
    simp [Json.ofString]

end

theorem fixedKind_congr {kind : String} (h : (Field.fixedKind kind).Agrees members members') :
    members'.fixedKind kind = members.fixedKind kind := by
  have hkind : (members'.last? "kind").getD (.ofString kind) =
      (members.last? "kind").getD (.ofString kind) := Checked.valid.inj h
  rw [fixedKind_eq_getD, hkind, fixedKind_eq_getD]

end Members

/-! ### Checks of members that agree

One lemma for each check: what it answers depends on the fields of the kind alone. -/

variable {kind : String} {fields : List Field}

theorem TypeExpr.check_congr (hkind : members.kind = .ok kind) (hkind' : members'.kind = .ok kind)
    (hmem : (kind, fields) ∈ Place.typeFields)
    (h : ∀ field ∈ fields, field.Agrees members members') :
    TypeExpr.check (.object members') = TypeExpr.check (.object members) := by
  simp only [Place.typeFields, List.mem_cons, List.not_mem_nil, or_false, Prod.mk.injEq] at hmem
  rcases hmem with ⟨rfl, rfl⟩ | ⟨rfl, rfl⟩ | ⟨rfl, rfl⟩ | ⟨rfl, rfl⟩ | ⟨rfl, rfl⟩ | ⟨rfl, rfl⟩ |
    ⟨rfl, rfl⟩ | ⟨rfl, rfl⟩ | ⟨rfl, rfl⟩ | ⟨rfl, rfl⟩ | ⟨rfl, rfl⟩ | ⟨rfl, rfl⟩ | ⟨rfl, rfl⟩
  -- Kinds without fields are done here; for the others there is one equation for each field.
  all_goals simp only [TypeExpr.check, hkind, hkind', Members.required_eq_map,
    Members.optional_items, Members.optional_text]
  all_goals
    simp only [List.forall_mem_cons, Field.items, Field.Agrees, Place.check,
      Checked.valid.injEq] at h
    simp only [h]

theorem TypeExpr.checkOrNull_object (members : Members) :
    TypeExpr.checkOrNull (.object members) = some <$> TypeExpr.check (.object members) := by
  rw [TypeExpr.checkOrNull]
  simp

theorem Property.checkMembers_congr
    (h : ∀ field ∈ Place.propertyFields, field.Agrees members members') :
    Property.checkMembers members' = Property.checkMembers members := by
  simp only [Place.propertyFields, List.forall_mem_cons, Field.Agrees, Place.check,
    Checked.valid.injEq] at h
  simp only [Property.checkMembers, Members.required_eq_map, Members.optional_annotation,
    Members.optional_flag, h]

theorem Member.check_congr (hkind : members.kind = .ok kind) (hkind' : members'.kind = .ok kind)
    (hmem : (kind, fields) ∈ Place.memberFields)
    (h : ∀ field ∈ fields, field.Agrees members members') :
    Member.check (.object members') = Member.check (.object members) := by
  simp only [Place.memberFields, List.mem_cons, List.not_mem_nil, or_false, Prod.mk.injEq] at hmem
  rcases hmem with ⟨rfl, rfl⟩ | ⟨rfl, rfl⟩ | ⟨rfl, rfl⟩
  · simp only [Member.check, hkind, hkind', Property.checkMembers_congr h]
  · simp only [List.forall_mem_cons, Field.Agrees, Place.check] at h
    simp only [Member.check, hkind, hkind', Members.optional_annotation, h]
  · simp only [List.forall_mem_cons, Field.Agrees, Place.check] at h
    simp only [Member.check, hkind, hkind', Members.required_eq_map, h]

theorem EntityName.checkIdentifier_congr
    (h : ∀ field ∈ Place.identifierFields, field.Agrees members members') :
    checkIdentifier members' = checkIdentifier members := by
  simp only [Place.identifierFields, List.forall_mem_cons, Field.Agrees, Place.check,
    Checked.map_valid_inj] at h
  simp only [checkIdentifier, Members.required_eq_map, h]

theorem Literal.checkMembers_congr
    (h : ∀ field ∈ Place.literalFields, field.Agrees members members') :
    checkMembers members' = checkMembers members := by
  simp only [Place.literalFields, List.forall_mem_cons, Field.Agrees, Place.check,
    Checked.map_valid_inj] at h
  simp only [checkMembers, Members.required_eq_map, h]

theorem EntityName.check_congr (hkind : members.kind = .ok kind)
    (hkind' : members'.kind = .ok kind) (hmem : (kind, fields) ∈ Place.nameFields)
    (h : ∀ field ∈ fields, field.Agrees members members') :
    check (.object members') = check (.object members) := by
  simp only [Place.nameFields, List.mem_cons, List.not_mem_nil, or_false, Prod.mk.injEq] at hmem
  rcases hmem with ⟨rfl, rfl⟩ | ⟨rfl, rfl⟩
  · simp only [check, hkind, hkind', checkIdentifier_congr h]
  · simp only [List.forall_mem_cons, Field.Agrees, Place.check] at h
    simp only [check, hkind, hkind', Members.required_eq_map, h]

theorem PropertyKey.check_congr (hkind : members.kind = .ok kind)
    (hkind' : members'.kind = .ok kind) (hmem : (kind, fields) ∈ Place.keyFields)
    (h : ∀ field ∈ fields, field.Agrees members members') :
    check (.object members') = check (.object members) := by
  simp only [Place.keyFields, List.mem_cons, List.not_mem_nil, or_false, Prod.mk.injEq] at hmem
  rcases hmem with ⟨rfl, rfl⟩ | ⟨rfl, rfl⟩
  · simp only [check, hkind, hkind', EntityName.checkIdentifier_congr h]
  · simp only [check, hkind, hkind', Literal.checkMembers_congr h]

theorem Validator.checkKind?_congr (hmem : (kind, fields) ∈ Place.validatorFields)
    (h : ∀ field ∈ fields, field.Agrees members members') :
    checkKind? kind members' = checkKind? kind members := by
  simp only [Place.validatorFields, List.mem_cons, List.not_mem_nil, or_false,
    Prod.mk.injEq] at hmem
  rcases hmem with ⟨rfl, rfl⟩ | ⟨rfl, rfl⟩ | ⟨rfl, rfl⟩
  all_goals
    simp only [List.forall_mem_cons, Field.items, Field.Agrees, Place.check,
      Checked.map_valid_inj] at h
    simp only [checkKind?, Members.required_eq_map, Members.optional_items, h]

theorem Validator.check_congr (hkind : members.kind = .ok kind) (hkind' : members'.kind = .ok kind)
    (hmem : (kind, fields) ∈ Place.validatorFields)
    (h : ∀ field ∈ fields, field.Agrees members members') :
    check (.object members') = check (.object members) := by
  simp only [check, hkind, hkind', checkKind?_congr hmem h]

theorem Argument.check_congr (hkind : members.kind = .ok kind) (hkind' : members'.kind = .ok kind)
    (hmem : (kind, fields) ∈ Place.argumentFields)
    (h : ∀ field ∈ fields, field.Agrees members members') :
    check (.object members') = check (.object members) := by
  simp only [Place.argumentFields, List.mem_cons, Prod.mk.injEq] at hmem
  rcases hmem with ⟨rfl, rfl⟩ | ⟨rfl, rfl⟩ | hmem
  · simp only [List.forall_mem_cons, Field.items, Field.Agrees, Place.check] at h
    simp only [check, hkind, hkind', Members.optional_items, h]
  · simp only [List.forall_mem_cons, Field.items, Field.Agrees, Place.check] at h
    simp only [check, hkind, hkind', Members.optional_items, h]
  · have hother : ∀ row ∈ Place.validatorFields,
        row.1 ≠ "array_literal" ∧ row.1 ≠ "object_literal" := by decide
    obtain ⟨harray, hobject⟩ := hother _ hmem
    simp only [check, hkind, hkind', Validator.checkKind?_congr hmem h]

theorem Element.check_congr (hkind : members.kind = .ok kind) (hkind' : members'.kind = .ok kind)
    (hmem : (kind, fields) ∈ Place.elementFields)
    (h : ∀ field ∈ fields, field.Agrees members members') :
    check (.object members') = check (.object members) := by
  simp only [Place.elementFields, List.mem_cons, Prod.mk.injEq] at hmem
  rcases hmem with ⟨rfl, rfl⟩ | hmem
  · simp only [check, hkind, hkind', Literal.checkMembers_congr h]
  · have hother : ∀ row ∈ Place.validatorFields, row.1 ≠ "value" := by decide
    have hvalue := hother _ hmem
    simp only [check, hkind, hkind', Validator.checkKind?_congr hmem h]

/-- What an object stands for depends on the fields that it has in its place alone. -/
theorem Place.check_congr {p : Place} (hfields : p.fields? members = some fields)
    (h : ∀ field ∈ fields, field.Agrees members members') :
    p.check (.object members') = p.check (.object members) := by
  have hvariant {table : List (String × List Field)}
      (hfields : variant? table members = some fields) : ∃ kind others,
      members.kind = .ok kind ∧ members'.kind = .ok kind ∧ (kind, others) ∈ table ∧
        ∀ field ∈ others, field.Agrees members members' := by
    obtain ⟨kind, others, hkind, hmem, rfl⟩ := exists_of_variant? hfields
    rw [List.forall_mem_cons] at h
    exact ⟨kind, others, hkind, (Members.kind_congr h.1).trans hkind, hmem, h.2⟩
  cases p with
  | leaf | list | groups => cases hfields
  | typeExpr =>
    obtain ⟨kind, others, hkind, hkind', hmem, h⟩ := hvariant hfields
    exact TypeExpr.check_congr hkind hkind' hmem h
  | annotation =>
    obtain ⟨kind, others, hkind, hkind', hmem, h⟩ := hvariant hfields
    rw [check, TypeExpr.checkOrNull_object, TypeExpr.check_congr hkind hkind' hmem h,
      TypeExpr.checkOrNull_object]
  | member =>
    obtain ⟨kind, others, hkind, hkind', hmem, h⟩ := hvariant hfields
    exact Member.check_congr hkind hkind' hmem h
  | entityName =>
    obtain ⟨kind, others, hkind, hkind', hmem, h⟩ := hvariant hfields
    exact EntityName.check_congr hkind hkind' hmem h
  | key =>
    obtain ⟨kind, others, hkind, hkind', hmem, h⟩ := hvariant hfields
    exact PropertyKey.check_congr hkind hkind' hmem h
  | validator =>
    obtain ⟨kind, others, hkind, hkind', hmem, h⟩ := hvariant hfields
    exact Validator.check_congr hkind hkind' hmem h
  | argument =>
    obtain ⟨kind, others, hkind, hkind', hmem, h⟩ := hvariant hfields
    exact Argument.check_congr hkind hkind' hmem h
  | element =>
    obtain ⟨kind, others, hkind, hkind', hmem, h⟩ := hvariant hfields
    exact Element.check_congr hkind hkind' hmem h
  | property =>
    cases hfields
    rw [List.forall_mem_cons] at h
    rw [check, Property.check, Members.fixedKind_congr h.1, Property.checkMembers_congr h.2,
      Property.check]
  | right =>
    cases hfields
    rw [List.forall_mem_cons] at h
    rw [check, EntityName.checkRight, Members.fixedKind_congr h.1,
      EntityName.checkIdentifier_congr h.2, EntityName.checkRight]
  | literal =>
    cases hfields
    rw [List.forall_mem_cons] at h
    rw [check, Literal.checkRecord, Members.fixedKind_congr h.1, Literal.checkMembers_congr h.2,
      Literal.checkRecord]
  | assignment =>
    cases hfields
    simp only [List.forall_mem_cons, Field.Agrees, check] at h
    simp only [check, Assignment.check, Members.required_eq_map, h]

end PropValidators
