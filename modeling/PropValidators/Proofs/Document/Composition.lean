import Mathlib
import PropValidators.Proofs.Document.Accepted
import PropValidators.Proofs.Document.Faults
import PropValidators.Proofs.Json.RoundTrip
/-!
No fault hides another: the faults of a request are those of its properties, each seen from above
its place, and then those of its two settings. The same holds of a list at any depth of a property.
-/
namespace PropValidators

/-! ### Parts of a document -/

/-- What stands at a path of a document, and in which place. Of members with one name the last
counts. -/
inductive PartAt : Place → Json → List DocumentStep → Place → Json → Prop
  | whole {p : Place} {j : Json} : PartAt p j [] p j
  | item {p q : Place} {items : List Json} {i : Nat} {item part : Json} {path : List DocumentStep}
      (hitem : items[i]? = some item) (hpart : PartAt p item path q part) :
      PartAt (.list p) (.array items) (.index i :: path) q part
  | field {p q : Place} {members : Members} {fields : List Field} {field : Field}
      {value part : Json} {path : List DocumentStep} (hfields : p.fields? members = some fields)
      (hfield : field ∈ fields) (hvalue : members.last? field.name = some value)
      (hpart : PartAt field.place value path q part) :
      PartAt p (.object members) (p.tag members ++ .name field.name :: path) q part

theorem PartAt.trans {p q r : Place} {j part inner : Json} {path path' : List DocumentStep}
    (h : PartAt p j path q part) (h' : PartAt q part path' r inner) :
    PartAt p j (path ++ path') r inner := by
  induction h with
  | whole => exact h'
  | item hitem _ ih => exact .item hitem (ih h')
  | field hfields hfield hvalue _ ih =>
    rw [List.append_assoc, List.cons_append]
    exact .field hfields hfield hvalue (ih h')

/-- The faults of a part are among others: they stand together as the part has them alone, seen from
above its path, and all others are elsewhere. -/
def HasFaultsAt (faults : List Fault) (path : List DocumentStep) (part : List Fault) : Prop :=
  ∃ before after, faults = before ++ part.map (Fault.below path) ++ after ∧
    ∀ f ∈ before ++ after, ¬path <+: f.path

namespace HasFaultsAt

variable {faults part : List Fault} {path : List DocumentStep}

theorem refl (faults : List Fault) : HasFaultsAt faults [] faults :=
  ⟨[], [], by simp, nofun⟩

theorem below (above : List DocumentStep) (h : HasFaultsAt faults path part) :
    HasFaultsAt (faults.map (Fault.below above)) (above ++ path) part := by
  obtain ⟨before, after, rfl, hothers⟩ := h
  refine ⟨before.map (Fault.below above), after.map (Fault.below above), ?_, ?_⟩
  · simp [Fault.below_below]
  · rw [← List.map_append]
    intro f hf
    obtain ⟨g, hg, rfl⟩ := List.mem_map.mp hf
    rw [Fault.below, List.prefix_append_right_inj]
    exact hothers g hg

/-- What is under other steps is elsewhere. -/
theorem not_prefix_of_mem {ι : Type} {ys : List ι} {step : ι → DocumentStep}
    {inner : ι → List Fault} {s : DocumentStep} (h : ∀ y ∈ ys, step y ≠ s) {f : Fault}
    (hf : f ∈ ys.flatMap fun y => (inner y).map (Fault.below [step y])) :
    ¬(s :: path) <+: f.path := by
  obtain ⟨y, hy, hf⟩ := List.mem_flatMap.mp hf
  obtain ⟨f, -, rfl⟩ := List.mem_map.mp hf
  rw [Fault.below, List.cons_append, List.cons_prefix_cons]
  exact fun hprefix => h y hy hprefix.1.symm

/-- The faults of things under different steps, one of which has those of the part. -/
theorem flatMap {ι : Type} {xs : List ι} {step : ι → DocumentStep} {inner : ι → List Fault}
    (hnodup : (xs.map step).Nodup) {x : ι} (hx : x ∈ xs) (h : HasFaultsAt (inner x) path part) :
    HasFaultsAt (xs.flatMap fun y => (inner y).map (Fault.below [step y])) (step x :: path)
      part := by
  obtain ⟨ys, zs, rfl⟩ := List.append_of_mem hx
  obtain ⟨before, after, heq, hothers⟩ := h.below [step x]
  rw [List.map_append, List.map_cons, List.nodup_middle, ← List.map_append,
    List.nodup_cons] at hnodup
  have hdifferent : ∀ y ∈ ys ++ zs, step y ≠ step x := fun y hy hstep =>
    hnodup.1 (hstep ▸ List.mem_map_of_mem hy)
  obtain ⟨hys, hzs⟩ := List.forall_mem_append.mp hdifferent
  refine ⟨(ys.flatMap fun y => (inner y).map (Fault.below [step y])) ++ before,
    after ++ zs.flatMap fun y => (inner y).map (Fault.below [step y]), ?_, ?_⟩
  · rw [List.flatMap_append, List.flatMap_cons, heq]
    simp
  · intro f hf
    rw [List.append_assoc, List.mem_append, ← List.append_assoc, List.mem_append] at hf
    rcases hf with hf | hf | hf
    · exact not_prefix_of_mem hys hf
    · exact hothers f hf
    · exact not_prefix_of_mem hzs hf

end HasFaultsAt

/-- Whatever has fields or items has the faults that it has alone, wherever it stands. -/
theorem PartAt.hasFaultsAt {p q : Place} {j part : Json} {path : List DocumentStep}
    (h : PartAt p j path q part) (hq : q ≠ .leaf) :
    HasFaultsAt (p.check j).faults path (q.check part).faults := by
  induction h with
  | whole => exact .refl _
  | @item p q items i item part path hitem _ ih =>
    have hmem : (item, i) ∈ items.zipIdx := List.mk_mem_zipIdx_iff_getElem?.mpr hitem
    have hnodup : (items.zipIdx.map fun entry => DocumentStep.index entry.2).Nodup := by
      have hrange : (List.range' 0 items.length).Nodup := List.nodup_range'
      have hindices := hrange.map fun _ _ h => DocumentStep.index.inj h
      rwa [← List.zipIdx_map_snd, List.map_map] at hindices
    rw [Place.check, Json.faults_checkList]
    exact HasFaultsAt.flatMap hnodup hmem (ih hq)
  | @field p q members fields field value part path hfields hfield hvalue hpart ih =>
    have hplace : field.place ≠ .leaf := by
      intro hleaf
      rw [hleaf] at hpart
      cases hpart with
      | whole => exact hq rfl
      | field hfields => cases hfields
    have hinner : field.innerFaults members = (field.place.check value).faults := by
      rw [Field.innerFaults, hvalue, ← Field.partFaults_of_place hplace]
    rw [Place.faults_object hfields]
    have hnodup : (fields.map fun field => DocumentStep.name field.name).Nodup := by
      have hnames := (Place.nodup_names hfields).map fun _ _ h => DocumentStep.name.inj h
      rwa [List.map_map] at hnames
    exact (HasFaultsAt.flatMap hnodup hfield (hinner ▸ ih hq)).below (p.tag members)

/-! ### Names that are characters -/

namespace Json

theorem isScalarText_of_last? {members : Members} (h : membersAreScalarText members = true)
    {name : String} {j : Json} (hj : members.last? name = some j) : j.isScalarText = true := by
  have hmem := Keyed.mem_of_last? hj
  clear hj
  induction members with
  | nil => cases hmem
  | cons entry members ih =>
    obtain ⟨key, value⟩ := entry
    simp only [membersAreScalarText, Bool.and_eq_true] at h
    rcases List.mem_cons.mp hmem with heq | hmem
    · exact (Prod.mk.inj heq).2 ▸ h.1.2
    · exact ih h.2 hmem

/-- Members without surrogates are under names. -/
theorem exists_eq_members {members : Members} (h : membersAreScalarText members = true) :
    ∃ named : List (String × Json), members = named.map fun entry => member entry.1 entry.2 := by
  induction members with
  | nil => exact ⟨[], rfl⟩
  | cons entry members ih =>
    obtain ⟨key, value⟩ := entry
    simp only [membersAreScalarText, Bool.and_eq_true] at h
    obtain ⟨named, rfl⟩ := ih h.2
    obtain ⟨cs, hcs⟩ := Option.isSome_iff_exists.mp h.1.1
    obtain rfl : key = String.ofList cs := by
      rw [← JoinedText.points_inj, Text.eq_ofChars hcs, JoinedText.points_ofString, Text.ofString,
        String.toList_ofList]
    exact ⟨(String.ofList cs, value) :: named, rfl⟩

theorem member_injective :
    Function.Injective fun entry : String × Json => member entry.1 entry.2 := by
  intro a b h
  obtain ⟨hname, hvalue⟩ := Prod.mk.inj h
  exact Prod.ext (JoinedText.ofString_inj.mp hname) hvalue

end Json

/-! ### Faults of a request -/

theorem Groups.faults_checkEntries (groups : List (String × Json)) :
    (checkEntries (groups.map fun group => Json.member group.1 group.2)).faults =
      groups.flatMap fun group =>
        (group.2.listFaults Property.check).map (Fault.below [.name group.1]) := by
  induction groups with
  | nil => rfl
  | cons group groups ih =>
    rw [List.map_cons, Json.member, checkEntries, Checked.faults_combine, ih, List.flatMap_cons,
      checkEntry, JoinedText.points_ofString, Text.toString?_ofString]
    simp [Property.checkList, Json.faults_checkList]

namespace Members

variable {α : Type} (members : Members) (name : String)

/-- The faults of what stands under a name, none if nothing does. -/
def faultsUnder (check : Json → Checked α) : List Fault :=
  match members.last? name with
  | some j => (check j).faults.map (Fault.below [.name name])
  | none => []

theorem faults_optional_eq (default : α) (check : Json → Checked α) :
    (members.optional name default fun j _ => check j).faults =
      members.faultsUnder name check := by
  rw [optional_eq, faultsUnder]
  cases members.last? name with
  | some j => exact Checked.faults_underName name (check j)
  | none => rfl

theorem faultsUnder_eq_nil {members : Members} {name : String} {check : Json → Checked α} :
    members.faultsUnder name check = [] ↔
      ∀ j, members.last? name = some j → ∃ a, check j = .valid a := by
  rw [faultsUnder]
  cases members.last? name with
  | some j => simp [Checked.faults_eq_nil]
  | none => simp

end Members

namespace Request

def checkNames (j : Json) : Checked (List Text) :=
  j.checkList fun item _ => Text.ofString <$> item.checkString

def checkImportName (j : Json) : Checked (Option Text) :=
  Option.map Text.ofString <$> j.checkStringOrNull

/-- The faults of a request are those of its groups, its names and its import name. -/
theorem faults_check (members : Members) :
    (check (.object members)).faults =
      members.faultsUnder "types" Groups.check ++ members.faultsUnder "type_names" checkNames ++
        members.faultsUnder "namespace_alias" checkImportName := by
  have hnames := members.faults_optional_eq "type_names" [] checkNames
  simp only [checkNames] at hnames
  have himport := members.faults_optional_eq "namespace_alias" none checkImportName
  simp only [checkImportName] at himport
  rw [check]
  simp [Members.faults_optional_eq, hnames, himport]

/-- The faults of the settings that stand beside the groups. -/
def settingFaults (members : Members) : List Fault :=
  members.faultsUnder "type_names" checkNames ++
    members.faultsUnder "namespace_alias" checkImportName

/-- The faults of groups, each of a list of properties, as a request document has them. -/
def groupFaults (groups : List (String × Json)) : List Fault :=
  groups.flatMap fun group =>
    (group.2.listFaults Property.check).map (Fault.below [.name "types", .name group.1])

theorem faultsUnder_types {members : Members} {groups : List (String × Json)}
    (h : members.last? "types" =
      some (.object (groups.map fun group => Json.member group.1 group.2))) :
    members.faultsUnder "types" Groups.check = groupFaults groups := by
  simp [Members.faultsUnder, h, Groups.check, Groups.faults_checkEntries, groupFaults,
    List.map_flatMap, Fault.below_below, Function.comp_def]

theorem groupFaults_eq_nil {groups : List (String × Json)} :
    groupFaults groups = [] ↔ ∀ group ∈ groups, ∃ items, group.2 = .array items ∧
      ∀ item ∈ items, ∃ p, Property.check item = .valid p := by
  simp only [groupFaults, List.flatMap_eq_nil_iff, List.map_eq_nil_iff, Json.listFaults_eq_nil]

end Request

/-- The lists in a type expression: its kind, the name of the list and what its items are. -/
def Place.typeLists : List (String × String × Place) :=
  [("type_literal", "members", member), ("union", "types", typeExpr),
   ("intersection", "types", typeExpr), ("reference", "type_arguments", typeExpr)]

theorem Place.exists_of_typeLists {kind name : String} {item : Place}
    (h : (kind, name, item) ∈ typeLists) :
    ∃ fields, typeFields.lookup kind = some fields ∧ Field.items name item ∈ fields := by
  simp only [typeLists, List.mem_cons, List.not_mem_nil, or_false, Prod.mk.injEq] at h
  rcases h with ⟨rfl, rfl, rfl⟩ | ⟨rfl, rfl, rfl⟩ | ⟨rfl, rfl, rfl⟩ | ⟨rfl, rfl, rfl⟩
  all_goals exact ⟨_, rfl, by simp⟩

/-- The list of a type expression is a part of it, under its kind and name. -/
theorem PartAt.typeList {p : Place} (hp : p = .typeExpr ∨ p = Place.annotation) {members : Members}
    {kind name : String} {item : Place} {j : Json} (hkind : members.kind = .ok kind)
    (hlist : (kind, name, item) ∈ Place.typeLists) (hj : members.last? name = some j) :
    PartAt p (.object members) [.name kind, .name name] (.list item) j := by
  obtain ⟨fields, hlookup, hfield⟩ := Place.exists_of_typeLists hlist
  have hvariant : Place.variant? Place.typeFields members = some (.kind :: fields) := by
    rw [Place.variant?, hkind]
    exact congrArg (Option.map _) hlookup
  have hmem : Field.items name item ∈ Field.kind :: fields := List.mem_cons_of_mem _ hfield
  have htag : p.tag members = [.name kind] := by
    rcases hp with rfl | rfl <;> rw [Place.tag, hkind]
  have hfields : p.fields? members = some (.kind :: fields) := by
    rcases hp with rfl | rfl <;> exact hvariant
  have hpart := PartAt.field hfields hmem hj .whole
  rwa [htag] at hpart

/-- Every fault of a request is reported and nothing else is: those of the elements of its groups,
each as the element has it alone as a property and seen from above its place, in the order in which
the document has groups and elements, then those of its settings. The elements of a list at any
depth of a property add theirs in the same way. -/
theorem no_fault_hides_another :
    (∀ (text : String) (members entries : Members),
      Json.readAdmitted? text = some (.object members) →
      members.last? "types" = some (.object entries) →
      ∃ groups : List (String × Json),
        entries = groups.map (fun group => Json.member group.1 group.2) ∧
        (Request.parse text).faults =
          Request.groupFaults groups ++ Request.settingFaults members ∧
        ((∃ r, Request.parse text = .valid r) ↔
          (∀ group ∈ groups, ∃ items, group.2 = .array items ∧
            ∀ item ∈ items, ∃ p, Property.check item = .valid p) ∧
          (∀ j, members.last? "type_names" = some j →
            ∃ names, Request.checkNames j = .valid names) ∧
          ∀ j, members.last? "namespace_alias" = some j →
            ∃ name, Request.checkImportName j = .valid name)) ∧
    (∀ (element : Json) (path : List DocumentStep) (p : Place) (members : Members)
      (kind name : String) (item : Place) (j : Json),
      PartAt .property element path p (.object members) → p = .typeExpr ∨ p = Place.annotation →
      members.kind = .ok kind → (kind, name, item) ∈ Place.typeLists →
      members.last? name = some j →
      HasFaultsAt (Property.check element).faults (path ++ [.name kind, .name name])
        (j.listFaults item.check)) := by
  constructor
  · intro text members entries hread htypes
    have hadmitted := Json.isAdmitted_of_readAdmitted? hread
    simp only [Json.isAdmitted, Json.isScalarText, Bool.and_eq_true] at hadmitted
    obtain ⟨groups, rfl⟩ :=
      Json.exists_eq_members (Json.isScalarText_of_last? hadmitted.1.1 htypes)
    have hfaults : (Request.parse text).faults =
        Request.groupFaults groups ++ Request.settingFaults members := by
      rw [Request.parse, hread, Request.faults_check, Request.faultsUnder_types htypes,
        List.append_assoc, Request.settingFaults]
    refine ⟨groups, rfl, hfaults, ?_⟩
    rw [← Checked.faults_eq_nil, hfaults, Request.settingFaults, List.append_eq_nil_iff,
      List.append_eq_nil_iff, Request.groupFaults_eq_nil, Members.faultsUnder_eq_nil,
      Members.faultsUnder_eq_nil]
  · intro element path p members kind name item j hpart hp hkind hlist hj
    have hlistAt := (hpart.trans (.typeList hp hkind hlist hj)).hasFaultsAt nofun
    rwa [Place.check, Json.faults_checkList] at hlistAt

/-- Two types, the second without a kind. -/
def faultyTypes : Json := .array [TypeExpr.number.toJson, .object []]

def faultyUnion : Members :=
  [Json.member "kind" (.ofString "union"), Json.member "types" faultyTypes]

/-- A property of such types that has no key. -/
def faultyElement : Json := .object [Json.member "type_annotation" (.object faultyUnion)]

def faultyRequest : Members :=
  [Json.member "types" (.object [Json.member "Props" (.array [faultyElement]),
     Json.member "Other" .null]),
   Json.member "type_names" (.array [.ofString "Props", .int 3])]

theorem listFaults_faultyTypes :
    faultyTypes.listFaults TypeExpr.check = [⟨[.index 1], .kindMissing⟩] := by
  have hnumber : TypeExpr.check TypeExpr.number.toJson = .valid .number := TypeExpr.check_toJson _
  have hempty : TypeExpr.check (.object []) = .fault .kindMissing := by
    rw [TypeExpr.check, Members.kind, Members.last?_nil]
  simp [faultyTypes, Json.listFaults, Checked.itemFaults, hnumber, hempty, Fault.below]

theorem faults_faultyElement : (Property.check faultyElement).faults =
    [⟨[.name "key"], .missing⟩,
     ⟨[.name "type_annotation", .name "union", .name "types", .index 1], .kindMissing⟩] := by
  have hunion : (TypeExpr.check (.object faultyUnion)).faults =
      [⟨[.name "union", .name "types", .index 1], .kindMissing⟩] := by
    have hmem : ("union", [Field.items "types" .typeExpr]) ∈ Place.typeFields := by
      simp [Place.typeFields]
    have htypes : faultyUnion.last? "types" = some faultyTypes := rfl
    rw [TypeExpr.faults_check rfl hmem]
    simp [Field.faults, Field.innerFaults, Field.items, htypes, Field.partFaults, Place.check,
      Json.faults_checkList, listFaults_faultyTypes, Fault.below]
  have hfields : Place.property.fields? [Json.member "type_annotation" (.object faultyUnion)] =
      some (.fixedKind "property" :: Place.propertyFields) := rfl
  have hfaults := Place.faults_object hfields
  rw [Place.check] at hfaults
  rw [faultyElement, hfaults]
  simp [Place.propertyFields, Place.tag, Field.faults, Field.innerFaults, Field.fixedKind,
    Field.partFaults, Place.check, TypeExpr.checkOrNull_object, hunion, Fault.below]

/-- Both faults of an element are reported, beside those of another group and of a setting, and the
one of its types as the types have it. -/
theorem all_faults_of_faulty_request :
    (Request.parse (Json.object faultyRequest).compact).faults =
      [⟨[.name "types", .name "Props", .index 0, .name "key"], .missing⟩,
       ⟨[.name "types", .name "Props", .index 0, .name "type_annotation", .name "union",
         .name "types", .index 1], .kindMissing⟩,
       ⟨[.name "types", .name "Other"], .notList⟩, ⟨[.name "type_names", .index 1], .notString⟩] ∧
    HasFaultsAt (Property.check faultyElement).faults
      [.name "type_annotation", .name "union", .name "types"] [⟨[.index 1], .kindMissing⟩] := by
  obtain ⟨hrequest, helement⟩ := no_fault_hides_another
  constructor
  · obtain ⟨groups, hgroups, hfaults, -⟩ := hrequest _ faultyRequest _
      (Json.readAdmitted?_compact (by cbv)) rfl
    obtain rfl : [("Props", .array [faultyElement]), ("Other", .null)] = groups :=
      List.map_injective_iff.mpr Json.member_injective hgroups
    have hnames : Request.settingFaults faultyRequest =
      [⟨[.name "type_names", .index 1], .notString⟩] := by decide
    rw [hfaults, hnames]
    simp [Request.groupFaults, Json.listFaults, Checked.itemFaults, faults_faultyElement,
      Fault.below]
  · have hunion : PartAt .property faultyElement [.name "type_annotation"] Place.annotation
        (.object faultyUnion) := by
      refine @PartAt.field .property _ _ _ ⟨"type_annotation", Place.annotation, some .null⟩ _ _ _
        rfl ?_ rfl .whole
      simp [Place.propertyFields]
    have htypes := helement _ _ _ _ "union" "types" .typeExpr faultyTypes hunion (.inr rfl) rfl
      (by simp [Place.typeLists]) rfl
    rw [Place.check, listFaults_faultyTypes] at htypes
    exact htypes

end PropValidators
