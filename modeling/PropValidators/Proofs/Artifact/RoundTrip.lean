import PropValidators.Artifact
import PropValidators.Proofs.Conversion.Literals
import PropValidators.Proofs.Document.Validator
import PropValidators.Proofs.Json.RoundTrip
/-!
Converted props that are serialized read back as they were.
-/
namespace PropValidators.Artifact

variable {limits : Limits} {props : List Assignment}

theorem overrun?_eq_none : overrun? limits props = none ↔
    limits.allowValidators (Validator.heightOfAssignments props) = true ∧
      (document props).overrun? limits 0 = none := by
  unfold overrun?
  split
  · next h => simp [h]
  · next h => simp [h]

theorem overrun?_unlimited (props : List Assignment) : overrun? .unlimited props = none :=
  Json.overrun?_unlimited 0 (document props)

theorem serializeWithin_eq_ok {text : String} :
    serializeWithin limits props = .ok text ↔
      overrun? limits props = none ∧ serialize props = text := by
  unfold serializeWithin
  cases overrun? limits props <;> simp

/-- What is serialized reads back within all limits that it keeps, whatever the literals are. -/
theorem deserialize_serialize (h : overrun? limits props = none) :
    deserialize limits (serialize props) = .ok props := by
  obtain ⟨hvalidators, hdocument⟩ := overrun?_eq_none.mp h
  unfold deserialize serialize
  rw [Json.read_compact hdocument]
  simp [document, Json.ofString, ofMembers, Assignment.checkList_toJson, hvalidators]

/-- Serialized props read back as equal ones unless they hold a literal that is not a number, which
equals none. -/
theorem readsBack_eq (props : List Assignment) :
    readsBack props = !Validator.assignmentsHaveNaN props := by
  unfold readsBack
  rw [deserialize_serialize (overrun?_unlimited props)]
  simp

/-- Props without a literal that is not a number read back as themselves, every literal of the type
it had, and so do the converted props of every request without one. With or without one, what is
read back has the same text again. Within limits this holds of every text that is serialized within
them. -/
theorem props_survive :
    (∀ props, Validator.assignmentsHaveNaN props = false →
      deserialize .unlimited (serialize props) = .ok props ∧ readsBack props = true) ∧
    (∀ (request : Request) (setting : Setting) (names : List Text),
      request.literals.any Literal.isNaN = false →
        let props := (convertSelection setting request.groups names).value
        deserialize .unlimited (serialize props) = .ok props ∧ readsBack props = true) ∧
    (∀ props, ∃ back,
      deserialize .unlimited (serialize props) = .ok back ∧ serialize back = serialize props) ∧
    (∀ limits props text, serializeWithin limits props = .ok text →
      text = serialize props ∧ deserialize limits text = .ok props) := by
  have hback (props : List Assignment) : deserialize .unlimited (serialize props) = .ok props :=
    deserialize_serialize (overrun?_unlimited props)
  refine ⟨fun props h => ?_, fun request setting names h => ?_, fun props => ?_,
    fun limits props text h => ?_⟩
  · exact ⟨hback props, by rw [readsBack_eq, h, Bool.not_false]⟩
  · refine ⟨hback _, ?_⟩
    rw [readsBack_eq, convertSelection_hasNaN h, Bool.not_false]
  · exact ⟨props, hback props, rfl⟩
  · obtain ⟨hlimits, rfl⟩ := serializeWithin_eq_ok.mp h
    exact ⟨rfl, deserialize_serialize hlimits⟩

/-- A choice among `true`, `1`, `1.0` and `"1"` survives both as an entry and when converted. -/
theorem choice_among_ones_survives :
    let one : Binary64 := .finite false ⟨Nat.pow 2 52, 1022, by decide, by decide, by decide⟩
    let ones : List Literal := [.bool true, .int 1, .float one, .string "1"]
    let choice : Assignment := .mk (.literal (.int 1)) (.callArray "oneOf" (ones.map .literal))
    let property : Property :=
      .mk (.literal (.int 1)) (some (.union (ones.map .literal))) (some true)
    let request : Request := ⟨[(("Props" : Text), [property])], [], none⟩
    deserialize .unlimited (serialize [choice]) = .ok [choice] ∧
      readsBack (convertSelection ⟨"React", EntityName.flatten⟩ request.groups ["Props"]).value =
        true :=
  ⟨(props_survive.1 _ (by decide)).1, (props_survive.2.1 _ _ _ (by decide)).2⟩

end PropValidators.Artifact
