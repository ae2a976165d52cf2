import PropValidators.Proofs.Conversion.Literals
import PropValidators.Proofs.Conversion.Selection
import PropValidators.Proofs.Document.Depth
/-!
How long integers are in documents and in what is read from them. A part has none that is longer
than those of what it is a part of, and so has no literal of an accepted value.
-/
namespace PropValidators

namespace Json

theorem integerLength_le_items {items : List Json} {item : Json} (h : item ∈ items) :
    item.integerLength ≤ integerLengthOfItems items := by
  induction items with
  | nil => cases h
  | cons first items ih =>
    rw [integerLengthOfItems]
    rcases List.mem_cons.mp h with rfl | h
    · exact le_max_left _ _
    · exact (ih h).trans (le_max_right _ _)

theorem integerLength_le_object {members : Members} {name : JoinedText} {j : Json}
    (h : Keyed.last? name members = some j) :
    j.integerLength ≤ (object members).integerLength := by
  have hmem := Keyed.mem_of_last? h
  show _ ≤ integerLengthOfMembers members
  clear h
  induction members with
  | nil => cases hmem
  | cons first members ih =>
    rw [integerLengthOfMembers]
    rcases List.mem_cons.mp hmem with rfl | hmem
    · exact le_max_left _ _
    · exact (ih hmem).trans (le_max_right _ _)

@[simp] theorem integerLength_array (items : List Json) :
    (array items).integerLength = integerLengthOfItems items := rfl

@[simp] theorem integerLength_object (members : Members) :
    (object members).integerLength = integerLengthOfMembers members := rfl

@[simp] theorem integerLength_string (t : JoinedText) : (string t).integerLength = 0 := rfl

@[simp] theorem integerLength_ofString (s : String) : (Json.ofString s).integerLength = 0 := rfl

@[simp] theorem integerLengthOfItems_cons (item : Json) (items : List Json) :
    integerLengthOfItems (item :: items) =
      max item.integerLength (integerLengthOfItems items) := rfl

@[simp] theorem integerLengthOfMembers_nil : integerLengthOfMembers [] = 0 := rfl

@[simp] theorem integerLengthOfMembers_member (name : String) (j : Json) (members : Members) :
    integerLengthOfMembers (member name j :: members) =
      max j.integerLength (integerLengthOfMembers members) := rfl

@[simp] theorem integerLength_ofKind (kind : String) (members : Members) :
    (Json.ofKind kind members).integerLength = integerLengthOfMembers members := by
  simp [Json.ofKind]

end Json

/-- The number of characters of a literal that is an integer. -/
def Literal.integerLength (value : Literal) : Nat := value.toJson.integerLength

/-- No literal is a longer integer than this many characters. -/
def AreShorter (literals : List Literal) (n : Nat) : Prop :=
  ∀ value ∈ literals, value.integerLength ≤ n

namespace AreShorter

variable {xs ys : List Literal} {m n : Nat}

@[simp] theorem nil : AreShorter [] n := fun _ h => absurd h List.not_mem_nil

@[simp] theorem append_iff : AreShorter (xs ++ ys) n ↔ AreShorter xs n ∧ AreShorter ys n :=
  List.forall_mem_append

@[simp] theorem singleton_iff {value : Literal} : AreShorter [value] n ↔ value.integerLength ≤ n :=
  List.forall_mem_singleton

theorem mono (h : AreShorter xs m) (hmn : m ≤ n) : AreShorter xs n :=
  fun value hvalue => (h value hvalue).trans hmn

end AreShorter

/-! ### Literals of what is read -/

namespace Members

variable {α : Type} {members : Members} {name : String} {check : Json → Checked α}

theorem Has.integerLength_le {a : α} (h : members.Has name check a) :
    ∃ j, check j = .valid a ∧ j.integerLength ≤ (Json.object members).integerLength := by
  obtain ⟨j, hj, hcheck⟩ := h
  exact ⟨j, hcheck, Json.integerLength_le_object hj⟩

theorem Lists.integerLength_le {values : List α} (h : members.Lists name check values) {a : α}
    (ha : a ∈ values) :
    ∃ j, check j = .valid a ∧ j.integerLength ≤ (Json.object members).integerLength := by
  rcases h with ⟨items, hitems, hvalues⟩ | ⟨-, rfl⟩
  · obtain ⟨item, hitem, hcheck⟩ := exists_left_of_forall₂ hvalues ha
    exact ⟨item, hcheck,
      (Json.integerLength_le_items hitem).trans (Json.integerLength_le_object hitems)⟩
  · cases ha

end Members

theorem Literal.toJson_of_check {j : Json} {value : Literal} (h : Literal.check j = .valid value) :
    value.toJson = j := by
  cases j <;> cases h <;> rfl

theorem Literal.integerLength_of_checkMembers {members : Members} {value : Literal}
    (h : Literal.checkMembers members = .valid value) :
    value.integerLength ≤ (Json.object members).integerLength := by
  obtain ⟨j, hcheck, hle⟩ := (Members.required_eq_valid.mp h).integerLength_le
  rwa [Literal.integerLength, Literal.toJson_of_check hcheck]

theorem Literal.integerLength_of_checkRecord {j : Json} {value : Literal}
    (h : Literal.checkRecord j = .valid value) : value.integerLength ≤ j.integerLength := by
  cases j with
  | object members =>
    obtain ⟨-, found, -, hfound, rfl⟩ := Checked.combine_eq_valid.mp h
    exact Literal.integerLength_of_checkMembers hfound
  | _ => cases h

theorem PropertyKey.areShorter_of_check {j : Json} {key : PropertyKey}
    (h : PropertyKey.check j = .valid key) : AreShorter key.literals j.integerLength := by
  cases key with
  | identifier name => exact .nil
  | literal value =>
    cases j with
    | object members =>
      rw [PropertyKey.check] at h
      split at h
      all_goals
        simp only [Checked.underName_eq_valid, Checked.map_eq_valid, Checked.fault_ne_valid] at h
      · obtain ⟨_, -, hkey⟩ := h
        cases hkey
      · obtain ⟨value, hvalue, hkey⟩ := h
        cases hkey
        exact AreShorter.singleton_iff.mpr (Literal.integerLength_of_checkMembers hvalue)
    | _ => cases h

mutual

/-- No literal of a type is a longer integer than those of a document of the type. -/
theorem TypeExpr.areShorter_of_check : (type : TypeExpr) → (j : Json) →
    TypeExpr.check j = .valid type → AreShorter type.literals j.integerLength
  | .reference name arguments, j, h => by
    obtain ⟨members, rfl, -, -, harguments⟩ := TypeExpr.isReadFrom_of_check h
    exact TypeExpr.areShorter_of_lists arguments fun _ => harguments.integerLength_le
  | .array element, j, h => by
    obtain ⟨members, rfl, -, helement⟩ := TypeExpr.isReadFrom_of_check h
    obtain ⟨part, hpart, hle⟩ := helement.integerLength_le
    exact (TypeExpr.areShorter_of_check element part hpart).mono hle
  | .literal value, j, h => by
    obtain ⟨members, rfl, -, hvalue⟩ := TypeExpr.isReadFrom_of_check h
    obtain ⟨part, hpart, hle⟩ := hvalue.integerLength_le
    exact AreShorter.singleton_iff.mpr ((Literal.integerLength_of_checkRecord hpart).trans hle)
  | .object found, j, h => by
    obtain ⟨members, rfl, -, hfound⟩ := TypeExpr.isReadFrom_of_check h
    exact Member.areShorter_of_lists found fun _ => hfound.integerLength_le
  | .union types, j, h => by
    obtain ⟨members, rfl, -, htypes⟩ := TypeExpr.isReadFrom_of_check h
    exact TypeExpr.areShorter_of_lists types fun _ => htypes.integerLength_le
  | .intersection types, j, h => by
    obtain ⟨members, rfl, -, htypes⟩ := TypeExpr.isReadFrom_of_check h
    exact TypeExpr.areShorter_of_lists types fun _ => htypes.integerLength_le
  | .parenthesized inner, j, h => by
    obtain ⟨members, rfl, -, hinner⟩ := TypeExpr.isReadFrom_of_check h
    obtain ⟨part, hpart, hle⟩ := hinner.integerLength_le
    exact (TypeExpr.areShorter_of_check inner part hpart).mono hle
  | .string, _, _ | .number, _, _ | .boolean, _, _ | .symbol, _, _ | .function, _, _
  | .other _, _, _ => .nil

theorem TypeExpr.areShorter_of_lists {n : Nat} : (types : List TypeExpr) →
    (∀ type ∈ types, ∃ j, TypeExpr.check j = .valid type ∧ j.integerLength ≤ n) →
    AreShorter (TypeExpr.listLiterals types) n
  | [], _ => .nil
  | type :: types, h => by
    obtain ⟨⟨j, hj, hle⟩, htypes⟩ := List.forall_mem_cons.mp h
    exact AreShorter.append_iff.mpr
      ⟨(TypeExpr.areShorter_of_check type j hj).mono hle, TypeExpr.areShorter_of_lists types htypes⟩

theorem Member.areShorter_of_lists {n : Nat} : (found : List Member) →
    (∀ member ∈ found, ∃ j, Member.check j = .valid member ∧ j.integerLength ≤ n) →
    AreShorter (Member.listLiterals found) n
  | [], _ => .nil
  | .property p :: found, h => by
    obtain ⟨⟨j, hj, hle⟩, hfound⟩ := List.forall_mem_cons.mp h
    obtain ⟨members, rfl, hp⟩ := Member.isReadFrom_of_check hj
    exact AreShorter.append_iff.mpr
      ⟨(Property.areShorter_of_check p members hp).mono hle,
        Member.areShorter_of_lists found hfound⟩
  | .index (some type) :: found, h => by
    obtain ⟨⟨j, hj, hle⟩, hfound⟩ := List.forall_mem_cons.mp h
    obtain ⟨members, rfl, htype⟩ := Member.isReadFrom_of_check hj
    obtain ⟨part, hpart, hle'⟩ := (Members.annotation_eq_valid.mp htype).integerLength_le
    exact AreShorter.append_iff.mpr
      ⟨(TypeExpr.areShorter_of_check type part hpart).mono (hle'.trans hle),
        Member.areShorter_of_lists found hfound⟩
  | .index none :: found, h => Member.areShorter_of_lists found (List.forall_mem_cons.mp h).2
  | .method key :: found, h => by
    obtain ⟨⟨j, hj, hle⟩, hfound⟩ := List.forall_mem_cons.mp h
    obtain ⟨members, rfl, hkey⟩ := Member.isReadFrom_of_check hj
    obtain ⟨part, hpart, hle'⟩ := hkey.integerLength_le
    exact AreShorter.append_iff.mpr
      ⟨(PropertyKey.areShorter_of_check hpart).mono (hle'.trans hle),
        Member.areShorter_of_lists found hfound⟩

theorem Property.areShorter_of_check : (p : Property) → (members : Members) →
    Property.checkMembers members = .valid p →
    AreShorter p.literals (Json.object members).integerLength
  | .mk key none optional, members, h => by
    obtain ⟨hkey, -⟩ := Property.has_of_check h
    obtain ⟨part, hpart, hle⟩ := hkey.integerLength_le
    exact (PropertyKey.areShorter_of_check hpart).mono hle
  | .mk key (some type) optional, members, h => by
    obtain ⟨hkey, htype⟩ := Property.has_of_check h
    obtain ⟨part, hpart, hle⟩ := hkey.integerLength_le
    obtain ⟨part', hpart', hle'⟩ := (htype type rfl).integerLength_le
    exact AreShorter.append_iff.mpr
      ⟨(PropertyKey.areShorter_of_check hpart).mono hle,
        (TypeExpr.areShorter_of_check type part' hpart').mono hle'⟩

end

/-- No literal of a request is a longer integer than those of a document of the request. -/
theorem Request.areShorter_of_check {j : Json} {r : Request} (h : Request.check j = .valid r) :
    AreShorter r.literals j.integerLength := by
  intro value hvalue
  obtain ⟨group, hgroup, hvalue⟩ := List.mem_flatMap.mp hvalue
  obtain ⟨p, hp, hvalue⟩ := List.mem_flatMap.mp hvalue
  have hlookup : r.groups.lookup group.1 = some group.2 :=
    lookup_of_mem (Request.areNamed_of_check h).nodup hgroup
  obtain ⟨members, entries, name, items, element, rfl, htypes, hlist, helement, hvalid⟩ :=
    Request.exists_element h hlookup hp
  obtain ⟨fields, rfl, hfields⟩ := Property.exists_members_of_check hvalid
  have hle : value.integerLength ≤ (Json.object fields).integerLength :=
    Property.areShorter_of_check p fields hfields value hvalue
  exact hle.trans <| (Json.integerLength_le_items helement).trans <|
    (Json.integerLength_le_object hlist).trans (Json.integerLength_le_object htypes)

end PropValidators
