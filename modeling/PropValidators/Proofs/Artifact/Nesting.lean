import PropValidators.Proofs.Artifact.RoundTrip
import PropValidators.Proofs.Conversion.Selection
import PropValidators.Proofs.Conversion.Walk
import PropValidators.Proofs.Document.Depth
import PropValidators.Proofs.Document.Edit
/-!
How deep converted props nest: at most twice as deep as the types they come from. So a reader needs
no more room for them than the request gives.
-/
namespace PropValidators

/-! ### Depth of validators -/

theorem Element.depth_list_le {elements : List Element} {n : Nat}
    (h : ∀ element ∈ elements, element.toJson.depth ≤ n) :
    Json.depthOfItems (Element.listToJson elements) ≤ n := by
  induction elements with
  | nil => exact Nat.zero_le n
  | cons element elements ih =>
    rw [List.forall_mem_cons] at h
    exact max_le h.1 (ih h.2)

theorem Assignment.depth_list_le {entries : List Assignment} {n : Nat}
    (h : ∀ entry ∈ entries, entry.toJson.depth ≤ n) :
    Json.depthOfItems (Assignment.listToJson entries) ≤ n := by
  induction entries with
  | nil => exact Nat.zero_le n
  | cons entry entries ih =>
    rw [List.forall_mem_cons] at h
    exact max_le h.1 (ih h.2)

@[simp] theorem Literal.depth_toDocument (value : Literal) : value.toDocument.depth = 1 := by
  cases value <;> rfl

@[simp] theorem PropertyKey.depth_toJson (key : PropertyKey) : key.toJson.depth = 1 := by
  cases key with
  | identifier name => rfl
  | literal value => exact Literal.depth_toDocument value

namespace Validator

@[simp] theorem depth_member (name : JoinedText) : (member name).toJson.depth = 1 := by
  simp [toJson]

@[simp] theorem depth_callOne (factory : JoinedText) (v : Validator) :
    (callOne factory v).toJson.depth = v.toJson.depth + 2 := by
  simp [callOne, toJson, Argument.listToJson, Argument.toJson]

theorem depth_callArray (factory : JoinedText) (elements : List Element) :
    (callArray factory elements).toJson.depth =
      Json.depthOfItems (Element.listToJson elements) + 4 := by
  simp [callArray, toJson, Argument.listToJson, Argument.toJson]

theorem depth_callObject (factory : JoinedText) (entries : List Assignment) :
    (call factory [.object entries]).toJson.depth =
      Json.depthOfItems (Assignment.listToJson entries) + 4 := by
  simp [toJson, Argument.listToJson, Argument.toJson]

theorem depth_callArray_le {factory : JoinedText} {elements : List Element} {n : Nat}
    (h : ∀ element ∈ elements, element.toJson.depth ≤ n) :
    (callArray factory elements).toJson.depth ≤ n + 4 := by
  rw [depth_callArray]
  exact Nat.add_le_add_right (Element.depth_list_le h) 4

theorem depth_callObject_le {factory : JoinedText} {entries : List Assignment} {n : Nat}
    (h : ∀ entry ∈ entries, entry.toJson.depth ≤ n) :
    (call factory [.object entries]).toJson.depth ≤ n + 4 := by
  rw [depth_callObject]
  exact Nat.add_le_add_right (Assignment.depth_list_le h) 4

theorem depth_require_le (v : Validator) (optional : Option Bool) :
    (v.require optional).toJson.depth ≤ v.toJson.depth + 1 := by
  unfold require
  split
  · exact Nat.le_succ _
  · simp [toJson]

end Validator

/-- A choice is four levels deeper than what is chosen from. -/
theorem depth_choice_le {types : List TypeExpr} {validators : List Validator} {v : Validator}
    {n : Nat} (h : choice types validators = some v) (hpos : 0 < n)
    (hn : ∀ w ∈ validators, w.toJson.depth ≤ n) : v.toJson.depth ≤ n + 4 := by
  rcases choice_cases h with ⟨literals, -, -, rfl⟩ | ⟨-, rfl⟩
  · apply Validator.depth_callArray_le
    intro element helement
    obtain ⟨value, -, rfl⟩ := List.mem_map.mp helement
    rw [Element.toJson, Literal.depth_toDocument]
    exact hpos
  · apply Validator.depth_callArray_le
    intro element helement
    obtain ⟨w, hw, rfl⟩ := List.mem_map.mp helement
    exact hn w hw

theorem Assignment.depth_toJson (key : PropertyKey) (v : Validator) :
    (Assignment.mk key v).toJson.depth = max 1 v.toJson.depth + 1 := by
  simp [Assignment.toJson]

theorem Assignment.depth_le (key : PropertyKey) (v : Validator) (optional : Option Bool) :
    (Assignment.mk key (v.require optional)).toJson.depth ≤ v.toJson.depth + 2 := by
  have hrequire := v.depth_require_le optional
  rw [Assignment.depth_toJson]
  omega

/-! ### Depth of what types convert to -/

variable {setting : Setting}

/-- What a type converts to nests at most twice as deep as any document of the type, and one level
more. -/
def TypeExpr.NestsTwice (setting : Setting) (inParentheses : Bool) (type : TypeExpr) : Prop :=
  ∀ j v, TypeExpr.check j = .valid type →
    (convertWithin setting inParentheses type).value = some v →
    v.toJson.depth ≤ 2 * j.filledDepth + 1

/-- The entry of a property, of which any document is an object. -/
theorem Property.depth_le {members : Members} {p : Property} {entry : Assignment}
    (hp : Property.checkMembers members = .valid p)
    (htype : ∀ type, p.type = some type → type.NestsTwice setting false)
    (hentry : (convertProperty setting p).value = some entry) :
    entry.toJson.depth ≤ 2 * (Json.object members).filledDepth + 1 := by
  obtain ⟨-, htypes⟩ := Property.has_of_check hp
  rw [convertProperty_value, Option.map_eq_some_iff] at hentry
  obtain ⟨v, hv, rfl⟩ := hentry
  obtain ⟨type, hsome, hv⟩ := Option.bind_eq_some_iff.mp hv
  obtain ⟨j, hj, hlt⟩ := (htypes type hsome).filledDepth_lt
  have hdepth := htype type hsome j v hj hv
  have hle := Assignment.depth_le p.key v p.optional
  omega

namespace TypeExpr

theorem nestsTwice_reference (b : Bool) (name : EntityName) (arguments : List TypeExpr) :
    (reference name arguments).NestsTwice setting b := by
  intro j v hj hv
  obtain ⟨members, rfl, -, hname, -⟩ := isReadFrom_of_check hj
  obtain ⟨part, hpart, hlt⟩ := hname.filledDepth_lt
  have hpos := EntityName.filledDepth_pos hpart
  obtain ⟨rule, hrule, rfl⟩ := exists_rule_of_reference hv
  have hrules : ∀ rule ∈ ReferenceRule.all, rule.validator.toJson.depth ≤ 5 := by
    simp only [ReferenceRule.all, List.forall_mem_cons]
    exact ⟨by decide, by decide, by decide, by decide, by decide, nofun⟩
  have hdepth := hrules rule hrule
  omega

theorem nestsTwice_array (b : Bool) {element : TypeExpr} (ih : element.NestsTwice setting false) :
    (array element).NestsTwice setting b := by
  intro j v hj hv
  obtain ⟨members, rfl, -, helement⟩ := isReadFrom_of_check hj
  obtain ⟨part, hpart, hlt⟩ := helement.filledDepth_lt
  rw [convertWithin_array_value] at hv
  cases hw : (convert setting element).value with
  | none =>
    obtain rfl : .member "array" = v := by simpa [hw] using hv
    rw [Validator.depth_member]
    omega
  | some w =>
    obtain rfl : .callOne "arrayOf" w = v := by simpa [hw] using hv
    have hdepth := ih part w hpart hw
    rw [Validator.depth_callOne]
    omega

theorem nestsTwice_indexed (b : Bool) {type : TypeExpr} (ih : type.NestsTwice setting false) :
    (object [.index (some type)]).NestsTwice setting b := by
  intro j v hj hv
  obtain ⟨members, rfl, -, hmembers⟩ := isReadFrom_of_check hj
  obtain ⟨part, hpart, hlt⟩ := hmembers.filledDepth_lt List.mem_cons_self
  obtain ⟨inner, rfl, hindex⟩ := Member.isReadFrom_of_check hpart
  obtain ⟨inside, hinside, hlt'⟩ := (Members.annotation_eq_valid.mp hindex).filledDepth_lt
  rw [convertWithin_indexed_value] at hv
  obtain ⟨w, hw, rfl⟩ := Option.map_eq_some_iff.mp hv
  have hdepth := ih inside w hinside hw
  rw [Validator.depth_callOne]
  omega

theorem nestsTwice_shape (b : Bool) {found : List Member} (hshape : IsShape found)
    (ih : ∀ p ∈ propertiesOf found, ∀ type, p.type = some type → type.NestsTwice setting false) :
    (object found).NestsTwice setting b := by
  intro j v hj hv
  obtain ⟨members, rfl, -, hmembers⟩ := isReadFrom_of_check hj
  obtain ⟨first, hfirst⟩ := List.exists_mem_of_ne_nil found hshape.1
  obtain ⟨_, _, hpos⟩ := hmembers.filledDepth_lt hfirst
  rw [convertWithin_shape_value b hshape] at hv
  obtain rfl := Option.some.inj hv
  have hentries : ∀ entry ∈ (convertProperties setting (propertiesOf found)).value,
      entry.toJson.depth ≤ 2 * (Json.object members).filledDepth - 3 := by
    rw [convertProperties_value]
    intro entry hentry
    obtain ⟨p, hp, hentry⟩ := List.mem_filterMap.mp hentry
    have hmem : Member.property p ∈ found := by
      obtain ⟨member, hmember, heq⟩ := List.mem_filterMap.mp hp
      cases member with
      | property signature => exact Option.some.inj heq ▸ hmember
      | index type => cases heq
      | method key => cases heq
    obtain ⟨part, hpart, hlt⟩ := hmembers.filledDepth_lt hmem
    obtain ⟨inner, rfl, hinner⟩ := Member.isReadFrom_of_check hpart
    have hdepth := Property.depth_le hinner (ih p hp) hentry
    omega
  have hdepth := @Validator.depth_callObject_le "shape" _ _ hentries
  omega

theorem nestsTwice_choice {members : Members} {types : List TypeExpr} {v : Validator}
    (htypes : members.Lists "types" TypeExpr.check types)
    (ih : ∀ type ∈ types, type.NestsTwice setting false)
    (hv : choice types (convertTypes setting types).value = some v) :
    v.toJson.depth ≤ 2 * (Json.object members).filledDepth + 1 := by
  obtain ⟨first, hfirst⟩ : ∃ type, type ∈ types := by
    refine List.exists_mem_of_ne_nil types ?_
    rintro rfl
    cases hv
  obtain ⟨_, _, hpos⟩ := htypes.filledDepth_lt hfirst
  have hvalidators : ∀ w ∈ (convertTypes setting types).value,
      w.toJson.depth ≤ 2 * (Json.object members).filledDepth - 3 := by
    rw [convertTypes_value]
    intro w hw
    obtain ⟨type, htype, hw⟩ := List.mem_filterMap.mp hw
    obtain ⟨part, hpart, hlt⟩ := htypes.filledDepth_lt htype
    have hdepth := ih type htype part w hpart hw
    omega
  have hdepth := depth_choice_le hv (by omega) hvalidators
  omega

theorem nestsTwice_parenthesized {inner : TypeExpr} (ih : inner.NestsTwice setting true) :
    (parenthesized inner).NestsTwice setting false := by
  intro j v hj hv
  obtain ⟨members, rfl, -, hinner⟩ := isReadFrom_of_check hj
  obtain ⟨part, hpart, hlt⟩ := hinner.filledDepth_lt
  have hdepth := ih part v hpart (by simpa [convertWithin] using hv)
  omega

/-- Every type does, by induction along its conversion. -/
theorem nestsTwice (setting : Setting) (inParentheses : Bool) (type : TypeExpr) :
    type.NestsTwice setting inParentheses := by
  have hmember {type : TypeExpr} {b : Bool} {name : JoinedText}
      (h : (convertWithin setting b type).value = some (.member name)) :
      type.NestsTwice setting b := by
    intro j v _ hv
    obtain rfl := Option.some.inj (h.symm.trans hv)
    rw [Validator.depth_member]
    omega
  have hnone {type : TypeExpr} {b : Bool} (h : (convertWithin setting b type).value = none) :
      type.NestsTwice setting b := by
    intro j v _ hv
    rw [h] at hv
    cases hv
  induction inParentheses, type using TypeExpr.convertedRec with
  | string b => exact hmember rfl
  | number b => exact hmember rfl
  | boolean b => exact hmember rfl
  | symbol b => exact hmember rfl
  | function b => exact hmember rfl
  | reference b name arguments => exact nestsTwice_reference b name arguments
  | array b element ih => exact nestsTwice_array b ih
  | literal b value => exact hnone rfl
  | empty b => exact hmember rfl
  | index b => exact hnone rfl
  | indexed b type ih => exact nestsTwice_indexed b ih
  | shape b members hshape ih => exact nestsTwice_shape b hshape ih
  | union b types ih =>
    intro j v hj hv
    obtain ⟨members, rfl, -, htypes⟩ := isReadFrom_of_check hj
    exact nestsTwice_choice htypes ih (by simpa [convertWithin] using hv)
  | intersection b types ih =>
    intro j v hj hv
    obtain ⟨members, rfl, -, htypes⟩ := isReadFrom_of_check hj
    exact nestsTwice_choice htypes ih (by simpa [convertWithin] using hv)
  | nested inner => exact hnone rfl
  | parenthesized inner ih => exact nestsTwice_parenthesized ih
  | other b description => exact hnone rfl

end TypeExpr

/-! ### Depth of converted props -/

namespace Artifact

theorem depth_document (props : List Assignment) :
    (document props).depth = Json.depthOfItems (Assignment.listToJson props) + 2 := by
  simp [document]

theorem depth_document_le {props : List Assignment} {n : Nat}
    (h : ∀ entry ∈ props, entry.toJson.depth ≤ n) : (document props).depth ≤ n + 2 := by
  rw [depth_document]
  exact Nat.add_le_add_right (Assignment.depth_list_le h) 2

theorem depth_convertSelection_le {j : Json} {r : Request} (hj : Request.check j = .valid r)
    (setting : Setting) (names : List Text) :
    (document (convertSelection setting r.groups names).value).depth ≤
      max 2 (2 * j.filledDepth - 3) := by
  have hentries : ∀ entry ∈ (convertSelection setting r.groups names).value,
      entry.toJson.depth ≤ 2 * j.filledDepth - 5 := by
    intro entry hentry
    obtain ⟨name, properties, p, hgroup, hp, hentry⟩ := exists_property_of_mem hentry
    obtain ⟨element, helement, hle⟩ := Request.filledDepth_of_check hj hgroup hp
    obtain ⟨members, rfl, hmembers⟩ := Property.exists_members_of_check helement
    have hdepth := Property.depth_le hmembers
      (fun type _ => TypeExpr.nestsTwice setting false type) hentry
    omega
  have hdepth := depth_document_le hentries
  omega

theorem depth_of_parse {text : String} {r : Request} (h : Request.parse text = .valid r)
    (setting : Setting) (names : List Text) :
    (document (convertSelection setting r.groups names).value).depth ≤ 397 := by
  obtain ⟨j, hadmitted, hj⟩ := Request.exists_of_parse h
  simp only [Json.isAdmitted, Bool.and_eq_true, decide_eq_true_eq] at hadmitted
  obtain ⟨⟨-, hfilled⟩, -⟩ := hadmitted
  have hle := depth_convertSelection_le hj setting names
  rw [Json.maxDepth] at hfilled
  omega

/-- A reader of converted props with room for so many levels: it reads what a text holds whose
document nests no deeper. -/
def HasRoom (levels : Nat) (read : String → Option (List Assignment)) : Prop :=
  ∀ text j props, Json.read .unlimited text = .ok j → j.depth ≤ levels →
    deserialize .unlimited text = .ok props →
    read text = some props

theorem read_serialize (props : List Assignment) :
    Json.read .unlimited (serialize props) = .ok (document props) :=
  Json.read_compact (Json.overrun?_unlimited 0 (document props))

theorem HasRoom.read_serialize {levels : Nat} {read : String → Option (List Assignment)}
    (h : HasRoom levels read) {props : List Assignment} (hprops : (document props).depth ≤ levels) :
    read (serialize props) = some props :=
  h _ _ props (Artifact.read_serialize props) hprops
    (deserialize_serialize (overrun?_unlimited props))

/-- What a type converts to nests at most twice as deep as its document and one level more. So the
converted props of a request, whatever is selected and however names are resolved, nest at most
twice as deep as the request less three levels, at most 397 for a request text, and are read back by
every reader with room for as many. -/
theorem nesting_is_bounded (setting : Setting) :
    (∀ j type v, TypeExpr.check j = .valid type → (convert setting type).value = some v →
      v.toJson.depth ≤ 2 * j.depth + 1) ∧
    (∀ j r names, Request.check j = .valid r →
      let props := (convertSelection setting r.groups names).value
      Json.read .unlimited (serialize props) = .ok (document props) ∧
      (document props).depth ≤ max 2 (2 * j.depth - 3) ∧
      ∀ read, HasRoom (max 2 (2 * j.depth - 3)) read → read (serialize props) = some props) ∧
    (∀ text r names, Request.parse text = .valid r →
      let props := (convertSelection setting r.groups names).value
      (document props).depth ≤ 397 ∧
      ∀ read, HasRoom 397 read → read (serialize props) = some props) := by
  refine ⟨fun j type v hj hv => ?_, fun j r names hj => ?_, fun text r names htext => ?_⟩
  · have hdepth := TypeExpr.nestsTwice setting false type j v hj hv
    have hfilled := j.filledDepth_le_depth
    omega
  · intro props
    have hdepth : (document props).depth ≤ max 2 (2 * j.depth - 3) := by
      have hle : (document props).depth ≤ max 2 (2 * j.filledDepth - 3) :=
        depth_convertSelection_le hj setting names
      have hfilled := j.filledDepth_le_depth
      omega
    exact ⟨read_serialize props, hdepth, fun read hread => hread.read_serialize hdepth⟩
  · intro props
    have hdepth : (document props).depth ≤ 397 := depth_of_parse htext setting names
    exact ⟨hdepth, fun read hread => hread.read_serialize hdepth⟩

/-- A reader that reads no document of more levels. -/
def readWithin (levels : Nat) (text : String) : Option (List Assignment) :=
  match Json.read .unlimited text with
  | .ok j => if j.depth ≤ levels then (deserialize .unlimited text).toOption else none
  | .error _ => none

theorem hasRoom_readWithin (levels : Nat) : HasRoom levels (readWithin levels) := by
  intro text j props hread hlevels hprops
  rw [readWithin, hread]
  dsimp only
  rw [if_pos hlevels, hprops]
  rfl

/-- A property whose type is a reference to `Ref`. -/
def refProperty : Property :=
  .mk (.identifier "ref") (some (.reference (.identifier "Ref") [])) none

def refGroups : Groups := [(("Props" : Text), [refProperty])]

def refRequest : Json := .object [Json.member "types" (Groups.toJson refGroups)]

theorem check_refRequest : Request.check refRequest = .valid ⟨refGroups, [], none⟩ :=
  Request.check_object_eq_valid.mpr ⟨Groups.check_toJson ⟨by decide, by simp [refGroups]⟩, rfl, rfl⟩

/-- A reference to `Ref` has two levels and converts to five. A request of it has six, its converted
props have nine: all that the bounds allow, so that one level less is too little for a reader. -/
theorem ref_nests_as_deep_as_bounded :
    let setting : Setting := ⟨"React", EntityName.flatten⟩
    let name : TypeExpr := .reference (.identifier "Ref") []
    let props := (convertSelection setting refGroups ["Props"]).value
    (∃ v, (convert setting name).value = some v ∧ name.toJson.depth = 2 ∧
      v.toJson.depth = 5 ∧ v.toJson.depth ≤ 2 * name.toJson.depth + 1) ∧
    refRequest.depth = 6 ∧ (document props).depth = 9 ∧
    readWithin 9 (serialize props) = some props ∧ readWithin 8 (serialize props) = none ∧
    readWithin 397 (serialize props) = some props := by
  intro setting name props
  obtain ⟨htype, hrequest, htext⟩ := nesting_is_bounded setting
  obtain ⟨hread, -, hroom⟩ := hrequest refRequest _ ["Props"] check_refRequest
  have hparse : Request.parse refRequest.compact = .valid ⟨refGroups, [], none⟩ := by
    rw [Request.parse, Json.readAdmitted?_compact (by cbv)]
    exact check_refRequest
  have hdepth : (document props).depth = 9 := by decide
  refine ⟨⟨_, rfl, rfl, rfl, htype _ name _ (TypeExpr.check_toJson name) rfl⟩, rfl, hdepth,
    hroom _ (hasRoom_readWithin 9), ?_, (htext _ _ ["Props"] hparse).2 _ (hasRoom_readWithin 397)⟩
  rw [readWithin, hread]
  dsimp only
  rw [if_neg (by decide)]

end Artifact

end PropValidators
