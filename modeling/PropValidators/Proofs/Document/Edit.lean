import Mathlib
import PropValidators.Proofs.Document.Accepted
import PropValidators.Proofs.Json.RoundTrip
import PropValidators.Proofs.Keyed
/-!
Edits of a document that are without effect: fields that are not declared are put in, fields of
their default are left out. Whatever is edited so, at any depth and any number of times, checks as
before, with the same value or the same faults.
-/
namespace PropValidators

/-- One edit of a document in a place. -/
inductive Edit : Place → Json → Json → Prop
  /-- A field that is not declared is put into an object. -/
  | putIn {p : Place} {before after : Members} {fields : List Field} {name : JoinedText}
      {value : Json} :
    p.fields? (before ++ after) = some fields →
    (∀ field ∈ fields, name ≠ field.name) →
    Edit p (.object (before ++ after)) (.object (before ++ (name, value) :: after))
  /-- A field that is written once, with its default, is left out. -/
  | leaveOut {p : Place} {before after : Members} {fields : List Field} {field : Field}
      {value : Json} :
    p.fields? (before ++ Json.member field.name value :: after) = some fields → field ∈ fields →
    field.default? = some value → (∀ entry ∈ before ++ after, entry.1 ≠ field.name) →
    Edit p (.object (before ++ Json.member field.name value :: after)) (.object (before ++ after))
  /-- The document of a field is edited. -/
  | field {p : Place} {before after : Members} {fields : List Field} {field : Field}
      {j j' : Json} :
    p.fields? (before ++ Json.member field.name j :: after) = some fields → field ∈ fields →
    Edit field.place j j' →
    Edit p (.object (before ++ Json.member field.name j :: after))
      (.object (before ++ Json.member field.name j' :: after))
  | item {p : Place} {before after : List Json} {j j' : Json} : Edit p j j' →
    Edit (.list p) (.array (before ++ j :: after)) (.array (before ++ j' :: after))
  | group {before after : Members} {name : JoinedText} {j j' : Json} : Edit (.list .property) j j' →
    Edit .groups (.object (before ++ (name, j) :: after)) (.object (before ++ (name, j') :: after))

/-! ### Members found after an edit -/

namespace Members

variable {before after : Members} {name : String}

theorem last?_append (before after : Members) (name : String) :
    last? (before ++ after) name = (last? after name).or (last? before name) :=
  Keyed.last?_append _ before after

theorem last?_cons_of_ne {other : JoinedText} (h : other ≠ name) (value : Json)
    (members : Members) : last? ((other, value) :: members) name = last? members name := by
  simp only [last?, Keyed.last?, if_neg h]
  cases Keyed.last? (JoinedText.ofString name) members <;> rfl

theorem last?_putIn {other : JoinedText} (h : other ≠ name) (value : Json) :
    last? (before ++ (other, value) :: after) name = last? (before ++ after) name := by
  rw [last?_append, last?_cons_of_ne h, last?_append]

/-- A member counts unless another one of its name comes later. -/
theorem last?_field (before after : Members) (name : String) (value : Json) :
    last? (before ++ Json.member name value :: after) name =
      (last? after name).or (some value) := by
  rw [last?_append, last?_member, if_pos rfl]
  cases last? after name <;> rfl

end Members

/-! ### One edit -/

namespace Place

variable {p : Place} {before after : Members} {fields : List Field} {field : Field}

theorem eq_of_name {members : Members} (hfields : p.fields? members = some fields) {f g : Field}
    (hf : f ∈ fields) (hg : g ∈ fields) (h : f.name = g.name) : f = g :=
  List.inj_on_of_nodup_map (nodup_names hfields) hf hg h

theorem check_putIn (hfields : p.fields? (before ++ after) = some fields) {name : JoinedText}
    (hname : ∀ field ∈ fields, name ≠ field.name) (value : Json) :
    p.check (.object (before ++ (name, value) :: after)) = p.check (.object (before ++ after)) :=
  check_congr hfields fun field hfield =>
    Field.agrees_of_last? (Members.last?_putIn (hname field hfield) value)

theorem check_leaveOut {value : Json}
    (hfields : p.fields? (before ++ Json.member field.name value :: after) = some fields)
    (hmem : field ∈ fields) (hdefault : field.default? = some value)
    (honce : ∀ entry ∈ before ++ after, entry.1 ≠ field.name) :
    p.check (.object (before ++ after)) =
      p.check (.object (before ++ Json.member field.name value :: after)) := by
  have hnone (members : Members) (h : members ⊆ before ++ after) :
      members.last? field.name = none := by
    refine Keyed.last?_eq_none.mpr fun hname => ?_
    obtain ⟨entry, hentry, heq⟩ := List.mem_map.mp hname
    exact honce entry (h hentry) heq
  refine check_congr hfields fun g hg => ?_
  by_cases hname : g.name = field.name
  · obtain rfl := eq_of_name hfields hg hmem hname
    have hafter := hnone after (List.subset_append_right before after)
    have hall := hnone (before ++ after) (List.Subset.refl _)
    simp only [Field.Agrees, hdefault, Members.last?_field, hafter, hall, Option.none_or,
      Option.getD_none, Option.getD_some]
  · have hne : (field.name : JoinedText) ≠ g.name :=
      fun h => hname (JoinedText.ofString_inj.mp h).symm
    exact Field.agrees_of_last? (Members.last?_putIn hne value).symm

theorem check_field {j j' : Json}
    (hfields : p.fields? (before ++ Json.member field.name j :: after) = some fields)
    (hmem : field ∈ fields) (h : field.place.check j' = field.place.check j) :
    p.check (.object (before ++ Json.member field.name j' :: after)) =
      p.check (.object (before ++ Json.member field.name j :: after)) := by
  refine check_congr hfields fun g hg => ?_
  by_cases hname : g.name = field.name
  · obtain rfl := eq_of_name hfields hg hmem hname
    unfold Field.Agrees
    rw [Members.last?_field, Members.last?_field]
    -- The edited member may be followed by another one of its name, which counts then.
    cases after.last? g.name with
    | some later => split <;> rfl
    | none => split <;> simp [h]
  · have hne : (field.name : JoinedText) ≠ g.name :=
      fun h => hname (JoinedText.ofString_inj.mp h).symm
    exact Field.agrees_of_last?
      ((Members.last?_putIn hne j').trans (Members.last?_putIn hne j).symm)

end Place

theorem Json.checkList_congr {α : Type} {check : Json → Checked α} {j j' : Json}
    (h : check j' = check j) (before after : List Json) :
    (Json.array (before ++ j' :: after)).checkList (fun item _ => check item) =
      (Json.array (before ++ j :: after)).checkList (fun item _ => check item) := by
  have hitems (start : Nat) :
      Checked.eachFrom start (before ++ j' :: after) (fun item _ => check item) =
        Checked.eachFrom start (before ++ j :: after) (fun item _ => check item) := by
    induction before generalizing start with
    | nil => simp only [List.nil_append, Checked.eachFrom, h]
    | cons item before ih => simp only [List.cons_append, Checked.eachFrom, ih]
  exact hitems 0

theorem Groups.checkEntries_congr {j j' : Json}
    (h : Property.checkList j' = Property.checkList j) (name : JoinedText)
    (before after : Members) :
    checkEntries (before ++ (name, j') :: after) = checkEntries (before ++ (name, j) :: after) := by
  induction before with
  | nil => simp only [List.nil_append, checkEntries, checkEntry, h]
  | cons entry before ih => simp only [List.cons_append, checkEntries, ih]

/-- An edited document checks as before, with the same value or the same faults. -/
theorem Edit.check_eq {p : Place} {j j' : Json} (h : Edit p j j') : p.check j' = p.check j := by
  induction h with
  | putIn hfields hname => exact Place.check_putIn hfields hname _
  | leaveOut hfields hmem hdefault honce => exact Place.check_leaveOut hfields hmem hdefault honce
  | field hfields hmem _ ih => exact Place.check_field hfields hmem ih
  | item _ ih => exact Json.checkList_congr ih _ _
  | group _ ih => exact congrArg (Keyed.settled <$> ·) (Groups.checkEntries_congr ih _ _ _)

/-! ### Any number of edits -/

/-- Edits in a row. -/
def Edits (p : Place) : Json → Json → Prop := Relation.ReflTransGen (Edit p)

theorem Edits.check_eq {p : Place} {j j' : Json} (h : Edits p j j') : p.check j' = p.check j := by
  induction h with
  | refl => rfl
  | tail _ hedit ih => exact hedit.check_eq.trans ih

/-! ### Groups written out -/

namespace Groups

/-- Groups written out, each under its name. -/
def toJson (groups : Groups) : Json :=
  .object <| groups.filterMap fun group => group.1.toString?.map fun name =>
    Json.member name (.array (group.2.map Property.toJson))

theorem checkEntries_toJson {groups : Groups} (h : ∀ group ∈ groups, ∃ s : String, group.1 = s) :
    checkEntries (groups.filterMap fun group => group.1.toString?.map fun name =>
      Json.member name (.array (group.2.map Property.toJson))) = .valid groups := by
  induction groups with
  | nil => rfl
  | cons group groups ih =>
    obtain ⟨⟨s, hs⟩, hgroups⟩ := List.forall_mem_cons.mp h
    obtain ⟨name, properties⟩ := group
    obtain rfl : name = s := hs
    have hgroup : checkEntry s (.array (properties.map Property.toJson)) =
        .valid (.ofString s, properties) := by
      simp [checkEntry, Property.checkList_toJson]
    simp only [List.filterMap_cons, Text.toString?_ofString, Option.map_some]
    rw [Json.member, checkEntries, hgroup, ih hgroups]
    rfl

theorem check_toJson {groups : Groups} (h : groups.AreNamed) :
    check (toJson groups) = .valid groups := by
  rw [toJson, check, checkEntries_toJson h.strings, Checked.map_valid,
    Keyed.settled_of_nodup h.nodup]

end Groups

/-! ### Values that are kept -/

/-- Documents keep the values of a place. A value that is written out checks as itself after edits
of any number, and a document that is accepted has a value that is accepted again, written out. -/
structure Place.Keeps (p : Place) (IsValue : p.Value → Prop) (write : p.Value → Json) :
    Prop where
  check_of_edits : ∀ v, IsValue v → ∀ j, Edits p (write v) j → p.check j = .valid v
  check_again : ∀ j v, p.check j = .valid v → p.check (write v) = p.check j

theorem Place.keeps_of_check_write {p : Place} {IsValue : p.Value → Prop} {write : p.Value → Json}
    (hwrite : ∀ v, IsValue v → p.check (write v) = .valid v)
    (hvalue : ∀ j v, p.check j = .valid v → IsValue v) : p.Keeps IsValue write where
  check_of_edits v hv _ h := h.check_eq.trans (hwrite v hv)
  check_again j v h := (hwrite v (hvalue j v h)).trans h.symm

/-- Type expressions, validators, lists of signatures and groups of different names are kept by
their documents, whatever undeclared fields are put in and whatever fields of their default are left
out. Such edits do not change what any document is checked as, accepted or not. As a text every
document is read as itself, as long as its nesting is within the limit. -/
theorem documents_keep_values :
    Place.typeExpr.Keeps (fun _ => True) TypeExpr.toJson ∧
    Place.validator.Keeps (fun _ => True) Validator.toJson ∧
    (Place.list .property).Keeps (fun _ => True)
      (fun properties => .array (properties.map Property.toJson)) ∧
    Place.groups.Keeps Groups.AreNamed Groups.toJson ∧
    (∀ (p : Place) (j j' : Json), Edits p j j' → p.check j' = p.check j) ∧
    (∀ j : Json, j.isAdmitted = true → Json.readAdmitted? j.compact = some j) := by
  refine ⟨?_, ?_, ?_, ?_, fun p j j' h => h.check_eq, fun j h => Json.readAdmitted?_compact h⟩
  · exact Place.keeps_of_check_write (fun type _ => TypeExpr.check_toJson type)
      fun _ _ _ => trivial
  · exact Place.keeps_of_check_write (fun v _ => (Validator.isWritten v).check)
      fun _ _ _ => trivial
  · exact Place.keeps_of_check_write (fun properties _ => Property.checkList_toJson properties)
      fun _ _ _ => trivial
  · exact Place.keeps_of_check_write (fun _ h => Groups.check_toJson h)
      fun _ _ h => Groups.areNamed_of_check h

def nodeType : TypeExpr := .reference (.qualified (.identifier "React") "ReactNode") []

/-- A document of the type `React.ReactNode`, without what may be left out and with a field that
types do not have. -/
def nodeDocument : Json :=
  .ofKind "reference"
    [Json.member "line" (.int 3),
     Json.member "type_name" (.ofKind "qualified"
      [Json.member "left" (EntityName.identifier "React").toJson,
       Json.member "right" (.object [Json.member "name" (.ofString "ReactNode")])])]

theorem edits_nodeDocument : Edits .typeExpr nodeType.toJson nodeDocument := by
  let kind := Json.member "kind" (.ofString "reference")
  let left := Json.member "left" (EntityName.identifier "React").toJson
  let name := Json.member "name" (.ofString "ReactNode")
  let full := Json.ofKind "identifier" [name]
  have hright : Edit .right full (.object [name]) :=
    @Edit.leaveOut .right [] [name] _ (.fixedKind "identifier") _ rfl (by simp) rfl (by decide)
  have hname : Edit .entityName (.ofKind "qualified" [left, Json.member "right" full])
      (.ofKind "qualified" [left, Json.member "right" (.object [name])]) :=
    @Edit.field .entityName [Json.member "kind" (.ofString "qualified"), left] [] _
      ⟨"right", .right, none⟩ _ _ rfl (by simp) hright
  have harguments := @Edit.leaveOut .typeExpr
    [kind, Json.member "type_name" (.ofKind "qualified" [left, Json.member "right" full])] [] _
    (.items "type_arguments" .typeExpr) _ rfl (by simp) rfl (by decide)
  have hright' := @Edit.field .typeExpr [kind] [] _ ⟨"type_name", .entityName, none⟩ _ _ rfl
    (by simp) hname
  have hline := @Edit.putIn .typeExpr [kind]
    [Json.member "type_name"
      (.ofKind "qualified" [left, Json.member "right" (.object [name])])] _
    "line" (.int 3) rfl (by decide)
  exact ((Relation.ReflTransGen.single harguments).tail hright').tail hline

/-- The document checks as its type, as does its text when it is read. Groups that have the type
are kept as they are. -/
theorem node_document_keeps_type :
    let groups : Groups := [(("Props" : Text), [.mk (.identifier "icon") (some nodeType) none])]
    TypeExpr.check nodeDocument = .valid nodeType ∧
      TypeExpr.check nodeType.toJson = TypeExpr.check nodeDocument ∧
      Json.readAdmitted? nodeDocument.compact = some nodeDocument ∧
      Groups.check (Groups.toJson groups) = .valid groups := by
  obtain ⟨htype, -, -, hgroups, -, htext⟩ := documents_keep_values
  have hcheck : TypeExpr.check nodeDocument = .valid nodeType :=
    htype.check_of_edits nodeType trivial nodeDocument edits_nodeDocument
  exact ⟨hcheck, htype.check_again _ _ hcheck, htext _ (by cbv),
    hgroups.check_of_edits _ ⟨by decide, by simp⟩ _ .refl⟩

end PropValidators
