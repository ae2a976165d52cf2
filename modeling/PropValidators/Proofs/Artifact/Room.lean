import PropValidators.Platform
import PropValidators.Proofs.Artifact.Nesting
import PropValidators.Proofs.Conversion.Grammar
import PropValidators.Proofs.Document.Integers
import PropValidators.Proofs.Json.Limits
/-!
The room that converted props need: their validators are at most half as high as their document is
deep, and their integers are those of the request. So what is converted from a request text is
within the limits of every platform.
-/
namespace PropValidators

variable {offered : List Literal → Prop}

/-! ### Height of validators -/

namespace Validator

theorem height_callOne (factory : JoinedText) (v : Validator) :
    (callOne factory v).height = v.height + 1 := by
  simp [callOne, height, heightOfArguments]

theorem height_callArray (factory : JoinedText) (elements : List Element) :
    (callArray factory elements).height = heightOfElements elements + 1 := by
  simp [callArray, height, heightOfArguments]

theorem height_callObject (factory : JoinedText) (entries : List Assignment) :
    (call factory [.object entries]).height = heightOfAssignments entries + 1 := by
  simp [height, heightOfArguments]

theorem heightOfElements_literals (literals : List Literal) :
    heightOfElements (literals.map .literal) = 0 := by
  induction literals with
  | nil => rfl
  | cons value literals ih => exact ih

theorem twice_heightOfElements_le {validators : List Validator}
    (h : ∀ v ∈ validators, 2 * v.height + 1 ≤ v.toJson.depth) :
    2 * heightOfElements (validators.map .validator) ≤
      Json.depthOfItems (Element.listToJson (validators.map .validator)) := by
  induction validators with
  | nil => exact Nat.le_refl _
  | cons v validators ih =>
    obtain ⟨hv, hvalidators⟩ := List.forall_mem_cons.mp h
    have hrest := ih hvalidators
    rw [List.map_cons, heightOfElements, Element.listToJson, Json.depthOfItems_cons, Element.toJson]
    omega

theorem twice_heightOfAssignments_le {entries : List Assignment}
    (h : ∀ a ∈ entries, 2 * (a.value.height + 1) ≤ a.toJson.depth + 1) :
    2 * heightOfAssignments entries ≤
      Json.depthOfItems (Assignment.listToJson entries) + 1 := by
  induction entries with
  | nil => exact Nat.zero_le _
  | cons a entries ih =>
    obtain ⟨hentry, hentries⟩ := List.forall_mem_cons.mp h
    have hrest := ih hentries
    obtain ⟨key, v⟩ := a
    rw [Assignment.value] at hentry
    rw [heightOfAssignments, Assignment.listToJson, Json.depthOfItems_cons]
    omega

end Validator

mutual

/-- A validator of the language is at most half as high as its document is deep. -/
theorem Validator.Emitted.twice_height_lt : {v : Validator} → v.Emitted offered →
    2 * v.height + 1 ≤ v.toJson.depth
  | _, .member _ => by simp [Validator.height]
  | _, @Validator.Emitted.arrayOf _ v hv => by
    have hlt := hv.twice_height_lt
    have hheight := Validator.height_callOne "arrayOf" v
    have hdepth := Validator.depth_callOne "arrayOf" v
    rw [Validator.callOne] at hheight hdepth
    omega
  | _, @Validator.Emitted.objectOf _ v hv => by
    have hlt := hv.twice_height_lt
    have hheight := Validator.height_callOne "objectOf" v
    have hdepth := Validator.depth_callOne "objectOf" v
    rw [Validator.callOne] at hheight hdepth
    omega
  | _, .shape hentries => by
    have hle := Validator.twice_heightOfAssignments_le fun a ha =>
      (hentries a ha).twice_height_le
    rw [Validator.height_callObject, Validator.depth_callObject]
    omega
  | _, @Validator.Emitted.oneOf _ literals _ _ => by
    have hheight := Validator.height_callArray "oneOf" (literals.map .literal)
    have hdepth := Validator.depth_callArray "oneOf" (literals.map .literal)
    rw [Validator.heightOfElements_literals] at hheight
    rw [Validator.callArray] at hheight hdepth
    omega
  | _, @Validator.Emitted.oneOfType _ validators _ hvalidators => by
    have hle := Validator.twice_heightOfElements_le fun v hv => (hvalidators v hv).twice_height_lt
    have hheight := Validator.height_callArray "oneOfType" (validators.map .validator)
    have hdepth := Validator.depth_callArray "oneOfType" (validators.map .validator)
    rw [Validator.callArray] at hheight hdepth
    omega

theorem Assignment.Emitted.twice_height_le : {a : Assignment} → a.Emitted offered →
    2 * (a.value.height + 1) ≤ a.toJson.depth + 1
  | _, .optional hv => by
    have hlt := hv.twice_height_lt
    rw [Assignment.depth_toJson, Assignment.value]
    omega
  | _, @Assignment.Emitted.required _ key v hv => by
    have hlt := hv.twice_height_lt
    have hdepth : (Validator.required v).toJson.depth = v.toJson.depth + 1 := by
      simp [Validator.toJson]
    rw [Assignment.depth_toJson, Assignment.value, Validator.height]
    omega

end

/-! ### Integers of validators -/

theorem PropertyKey.integerLength_toJson_le {key : PropertyKey} {n : Nat}
    (h : AreShorter key.literals n) : key.toJson.integerLength ≤ n := by
  cases key with
  | identifier name => exact Nat.zero_le n
  | literal value =>
    have hvalue := AreShorter.singleton_iff.mp h
    simpa [toJson, Literal.toDocument, Literal.integerLength] using hvalue

mutual

/-- What is written of a validator has no integer that is longer than its literals. -/
theorem Validator.integerLength_toJson_le {n : Nat} : (v : Validator) → AreShorter v.literals n →
    v.toJson.integerLength ≤ n
  | .member _, _ => Nat.zero_le n
  | .call factory arguments, h => by
    have harguments := Argument.integerLength_listToJson_le arguments h
    simpa [Validator.toJson] using harguments
  | .required v, h => by
    have hv := Validator.integerLength_toJson_le v h
    simpa [Validator.toJson] using hv

theorem Argument.integerLength_listToJson_le {n : Nat} : (arguments : List Argument) →
    AreShorter (Argument.listLiterals arguments) n →
    Json.integerLengthOfItems (Argument.listToJson arguments) ≤ n
  | [], _ => Nat.zero_le n
  | .validator v :: arguments, h => by
    obtain ⟨hv, harguments⟩ := AreShorter.append_iff.mp h
    exact max_le (Validator.integerLength_toJson_le v hv)
      (Argument.integerLength_listToJson_le arguments harguments)
  | .array elements :: arguments, h => by
    obtain ⟨helements, harguments⟩ := AreShorter.append_iff.mp h
    have hlist := Element.integerLength_listToJson_le elements helements
    have hrest := Argument.integerLength_listToJson_le arguments harguments
    simp [Argument.listToJson, Argument.toJson, hlist, hrest]
  | .object properties :: arguments, h => by
    obtain ⟨hproperties, harguments⟩ := AreShorter.append_iff.mp h
    have hlist := Assignment.integerLength_listToJson_le properties hproperties
    have hrest := Argument.integerLength_listToJson_le arguments harguments
    simp [Argument.listToJson, Argument.toJson, hlist, hrest]

theorem Element.integerLength_listToJson_le {n : Nat} : (elements : List Element) →
    AreShorter (Element.listLiterals elements) n →
    Json.integerLengthOfItems (Element.listToJson elements) ≤ n
  | [], _ => Nat.zero_le n
  | .validator v :: elements, h => by
    obtain ⟨hv, helements⟩ := AreShorter.append_iff.mp h
    exact max_le (Validator.integerLength_toJson_le v hv)
      (Element.integerLength_listToJson_le elements helements)
  | .literal value :: elements, h => by
    obtain ⟨hvalue, helements⟩ := List.forall_mem_cons.mp h
    have hrest := Element.integerLength_listToJson_le elements helements
    rw [Literal.integerLength] at hvalue
    simp [Element.listToJson, Element.toJson, Literal.toDocument, hvalue, hrest]

theorem Assignment.integerLength_listToJson_le {n : Nat} : (entries : List Assignment) →
    AreShorter (Assignment.listLiterals entries) n →
    Json.integerLengthOfItems (Assignment.listToJson entries) ≤ n
  | [], _ => Nat.zero_le n
  | .mk key v :: entries, h => by
    simp only [Assignment.listLiterals, AreShorter.append_iff] at h
    obtain ⟨⟨hkey, hv⟩, hentries⟩ := h
    have hkey' := PropertyKey.integerLength_toJson_le hkey
    have hv' := Validator.integerLength_toJson_le v hv
    have hrest := Assignment.integerLength_listToJson_le entries hentries
    simp [Assignment.listToJson, Assignment.toJson, hkey', hv', hrest]

end

/-! ### Limits that are kept -/

namespace Artifact

variable {limits : Limits} {r : Request}

theorem integerLength_document_le {props : List Assignment} {n : Nat}
    (h : AreShorter (Assignment.listLiterals props) n) : (document props).integerLength ≤ n := by
  have hlist := Assignment.integerLength_listToJson_le props h
  simpa [document] using hlist

theorem twice_height_convertSelection_le (setting : Setting) (groups : Groups)
    (names : List Text) :
    let props := (convertSelection setting groups names).value
    2 * Validator.heightOfAssignments props ≤ (document props).depth := by
  intro props
  have hentries : ∀ a ∈ props, 2 * (a.value.height + 1) ≤ a.toJson.depth + 1 := by
    intro a ha
    obtain ⟨name, properties, p, -, -, hentry⟩ := exists_property_of_mem ha
    obtain ⟨-, ⟨type, v, -, hv, hvalue⟩, -⟩ := emittedFor_of_assignment hentry
    have hemitted : a.Emitted (Site.Offers ⟨false, type⟩) := by
      obtain ⟨key, w⟩ := a
      rw [Assignment.value] at hvalue
      rw [hvalue]
      split
      · exact .optional hv
      · exact .required hv
    exact hemitted.twice_height_le
  have hheight := Validator.twice_heightOfAssignments_le hentries
  rw [depth_document]
  omega

theorem integerLength_of_parse {text : String} (h : Request.parse text = .valid r)
    (setting : Setting) (names : List Text) :
    (document (convertSelection setting r.groups names).value).integerLength ≤
      Json.maxIntegerLength := by
  obtain ⟨j, hadmitted, hj⟩ := Request.exists_of_parse h
  simp only [Json.isAdmitted, Bool.and_eq_true, decide_eq_true_eq] at hadmitted
  refine integerLength_document_le fun value hvalue => ?_
  have hmem : value ∈ r.literals := literals_convertSelection r.groups names hvalue
  exact (Request.areShorter_of_check hj value hmem).trans hadmitted.2

/-- What is converted from a request text keeps all limits that leave room for what the text may
hold. -/
theorem overrun?_of_parse {text : String} (h : Request.parse text = .valid r)
    (hdigits : limits.allowDigits Json.maxIntegerLength = true)
    (hnesting : limits.allowNesting (2 * Json.maxDepth) = true)
    (hvalidators : limits.allowValidators Json.maxDepth = true) (setting : Setting)
    (names : List Text) :
    overrun? limits (convertSelection setting r.groups names).value = none := by
  have hdepth := depth_of_parse h setting names
  have hlength := integerLength_of_parse h setting names
  have hheight := twice_height_convertSelection_le setting r.groups names
  refine overrun?_eq_none.mpr ⟨?_, Json.overrun?_eq_none _ 0 ?_ ?_⟩
  · exact Limits.allowValidators_of_le hvalidators (by rw [Json.maxDepth]; omega)
  · exact Limits.allowNesting_of_le hnesting (by rw [Json.maxDepth]; omega)
  · exact Limits.allowDigits_of_le hdigits hlength

/-- Every platform has room for what is converted from a request text. -/
theorem serializeWithin_of_parse [Platform] {text : String} (h : Request.parse text = .valid r)
    (setting : Setting) (names : List Text) :
    let props := (convertSelection setting r.groups names).value
    serializeWithin Platform.limits props = .ok (serialize props) :=
  serializeWithin_eq_ok.mpr ⟨overrun?_of_parse h Platform.roomForDigits Platform.roomForNesting
    Platform.roomForValidators setting names, rfl⟩

end Artifact

end PropValidators
