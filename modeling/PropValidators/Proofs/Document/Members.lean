import Mathlib.Tactic
import PropValidators.Document.Name
import PropValidators.Proofs.Text.Basic
/-!
Checks of members that are written out: a member is found under its name, and a value that is valid
stays so below a name, in a list and beside other valid ones.
-/
namespace PropValidators

namespace Checked

variable {α β : Type}

@[simp] theorem map_valid (f : α → β) (a : α) : f <$> valid a = valid (f a) := rfl

@[simp] theorem seq_valid (f : α → β) (a : α) : valid f <*> valid a = valid (f a) := rfl

@[simp] theorem underName_valid (name : String) (a : α) :
    (valid a).underName name = valid a := rfl

/-- A list is valid if each of its items is. -/
theorem eachFrom_of_forall₂ {check : Json → Checked α} {items : List Json} {values : List α}
    (h : List.Forall₂ (fun item a => check item = valid a) items values) (start : Nat) :
    eachFrom start items (fun item _ => check item) = valid values := by
  induction h generalizing start with
  | nil => rfl
  | cons hitem _ ih =>
    rw [eachFrom, hitem, ih]
    rfl

/-- A list is valid only if each of its items is. -/
theorem forall₂_of_eachFrom {check : Json → Checked α} {items : List Json} {values : List α}
    {start : Nat} (h : eachFrom start items (fun item _ => check item) = valid values) :
    List.Forall₂ (fun item a => check item = valid a) items values := by
  induction items generalizing values start with
  | nil =>
    cases h
    exact .nil
  | cons item items ih =>
    rw [eachFrom] at h
    cases hitem : check item with
    | faulty first others =>
      rw [hitem] at h
      cases h
    | valid a =>
      cases hitems : eachFrom (start + 1) items (fun item _ => check item) with
      | faulty first others =>
        rw [hitem, hitems] at h
        cases h
      | valid others =>
        rw [hitem, hitems] at h
        cases h
        exact .cons hitem (ih hitems)

end Checked

namespace Members

variable {α : Type}

@[simp] theorem last?_nil (name : String) : last? [] name = none := rfl

@[simp] theorem last?_member (n : String) (j : Json) (members : Members) (name : String) :
    last? (Json.member n j :: members) name =
      (last? members name).or (if n = name then some j else none) := by
  simp only [last?, Json.member, Keyed.last?, JoinedText.ofString_inj]
  cases Keyed.last? (JoinedText.ofString name) members <;> rfl

/-- A member that has to be there, by what is found under its name. -/
theorem required_eq (members : Members) (name : String) (check : Json → Checked α) :
    members.required name (fun j _ => check j) =
      (match members.last? name with
        | some j => check j
        | none => .fault .missing).underName name := by
  unfold required
  split
  · next h => simp only [h]
  · next h => simp only [h]

/-- A member that has a default, by what is found under its name. -/
theorem optional_eq (members : Members) (name : String) (default : α) (check : Json → Checked α) :
    members.optional name default (fun j _ => check j) =
      match members.last? name with
      | some j => (check j).underName name
      | none => .valid default := by
  unfold optional
  split
  · next h => simp only [h]
  · next h => simp only [h]

@[simp] theorem kind_member (kind : String) (members : Members)
    (h : members.last? "kind" = none) :
    Members.kind (Json.member "kind" (.ofString kind) :: members) = .ok kind := by
  simp [Members.kind, Json.ofString, h]

/-- The kind of a record is in order if it is the expected one wherever it is written. -/
theorem fixedKind_eq_valid {members : Members} {kind : String}
    (h : ∀ j ∈ members.last? "kind", j = .ofString kind) :
    fixedKind members kind = .valid () := by
  unfold fixedKind optional
  split
  · next j hj =>
    obtain rfl := h j hj
    simp [Json.ofString]
  · rfl

end Members

namespace Json

@[simp] theorem checkText_string (t : JoinedText) : (string t).checkText = .valid t := rfl

@[simp] theorem checkString_ofString (s : String) : (Json.ofString s).checkString = .valid s := by
  simp [Json.ofString, checkString]

theorem checkList_of_forall₂ {α : Type} {check : Json → Checked α} {items : List Json}
    {values : List α} (h : List.Forall₂ (fun item a => check item = .valid a) items values) :
    (Json.array items).checkList (fun item _ => check item) = .valid values := by
  rw [checkList, Checked.each]
  exact Checked.eachFrom_of_forall₂ h 0

theorem checkList_eq_valid {α : Type} {check : Json → Checked α} {j : Json} {values : List α} :
    j.checkList (fun item _ => check item) = .valid values ↔
      ∃ items, j = .array items ∧
        List.Forall₂ (fun item a => check item = .valid a) items values := by
  constructor
  · intro h
    cases j with
    | array items => exact ⟨items, rfl, Checked.forall₂_of_eachFrom h⟩
    | _ => cases h
  · rintro ⟨items, rfl, h⟩
    exact checkList_of_forall₂ h

end Json

end PropValidators
