import PropValidators.Proofs.Json.NumberLiteral
import PropValidators.Proofs.Json.Spelling
/-!
The compact text of a document spells the document, and so reads back as it within all limits that
it keeps: same nesting, same order, repeated names kept, and every value of the type it was written
with.
-/
namespace PropValidators.Json

theorem spells_ofInt (n : Int) : Spells (.value (.int n)) (Digits.ofInt n) := by
  cases n with
  | ofNat n => exact .number (spellsUnsigned_ofNat false n)
  | negSucc n =>
    have hspells := Spells.negative (spellsUnsigned_ofNat true (n + 1))
    simpa [Digits.ofInt, Int.negSucc_eq] using hspells

theorem spells_floatLiteral (x : Binary64) : Spells (.value (.float x)) (floatLiteral x) := by
  rcases x with ⟨_ | _, x⟩ | ⟨_ | _⟩ | _
  · exact .number (spellsUnsigned_magnitude false x)
  · exact .negative (spellsUnsigned_magnitude true x)
  · exact .infinite
  · exact .negativeInfinite
  · exact .notNumber

theorem Spells.text_of_value {j : Json} {cs : List Char} (h : Spells (.value j) cs) :
    Spells (.text j) cs := by
  simpa using Spells.text areBlank_nil h areBlank_nil

theorem spells_member (name : JoinedText) {j : Json} {cs : List Char} (h : Spells (.value j) cs) :
    Spells (.member name j) (literal name.points ++ ':' :: cs) := by
  simpa [literal] using
    Spells.member areBlank_nil (spellsText_escape name) areBlank_nil h.text_of_value

mutual

/-- A document is spelled by its compact text. -/
theorem spells_print : (j : Json) → Spells (.value j) (print j)
  | null => .null
  | bool true => .true
  | bool false => .false
  | int n => spells_ofInt n
  | float x => spells_floatLiteral x
  | string t => .string (spellsText_escape t)
  | array [] => .emptyArray areBlank_nil
  | array (item :: items) => .array (spells_printItems (item :: items) (by simp))
  | object [] => .emptyObject areBlank_nil
  | object (member :: members) => .object (spells_printMembers (member :: members) (by simp))

theorem spells_printItems : (items : List Json) → items ≠ [] →
    Spells (.items items) (printItems items)
  | [], hne => absurd rfl hne
  | [item], _ => .lastItem (spells_print item).text_of_value
  | item :: next :: items, _ =>
    .item (spells_print item).text_of_value (spells_printItems (next :: items) (by simp))

theorem spells_printMembers : (members : List (JoinedText × Json)) → members ≠ [] →
    Spells (.members members) (printMembers members)
  | [], hne => absurd rfl hne
  | [(name, value)], _ => .lastMember (spells_member name (spells_print value))
  | (name, value) :: next :: members, _ =>
    .moreMembers (spells_member name (spells_print value))
      (spells_printMembers (next :: members) (by simp))

end

theorem spells_compact (j : Json) : Spells (.text j) j.compact.toList := by
  rw [compact, String.toList_ofList]
  exact (spells_print j).text_of_value

/-- A document reads back from its compact text within all limits that it keeps. -/
theorem read_compact {limits : Limits} {j : Json} (h : j.overrun? limits 0 = none) :
    read limits j.compact = .ok j := read_eq_ok.mpr ⟨spells_compact j, h⟩

mutual

theorem overrun?_unlimited (level : Nat) : (j : Json) → j.overrun? .unlimited level = none
  | null | bool _ | int _ | float _ | string _ => rfl
  | array items => overrunOfItems?_unlimited (level + 1) items
  | object members => overrunOfMembers?_unlimited (level + 1) members

theorem overrunOfItems?_unlimited (level : Nat) : (items : List Json) →
    overrunOfItems? .unlimited level items = none
  | [] => rfl
  | item :: items => by
    rw [overrunOfItems?, overrun?_unlimited level item, overrunOfItems?_unlimited level items]
    rfl

theorem overrunOfMembers?_unlimited (level : Nat) : (members : List (JoinedText × Json)) →
    overrunOfMembers? .unlimited level members = none
  | [] => rfl
  | (_, value) :: members => by
    rw [overrunOfMembers?, overrun?_unlimited level value,
      overrunOfMembers?_unlimited level members]
    rfl

end

/-- A document that may stand for a value is read as such from its compact text. -/
theorem readAdmitted?_compact {j : Json} (h : j.isAdmitted = true) :
    readAdmitted? j.compact = some j := by
  simp only [readAdmitted?, read_compact (overrun?_unlimited 0 j), h, if_true]

end PropValidators.Json
