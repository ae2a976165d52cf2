import PropValidators.Proofs.Document.Accepted
/-!
How deep documents nest. A part nests less than what it is a part of, and so do the documents that
the parts of an accepted value are read from.
-/
namespace PropValidators

namespace Json

/-! ### Depth by parts -/

theorem filledDepth_le_items {items : List Json} {item : Json} (h : item ∈ items) :
    item.filledDepth ≤ filledDepthOfItems items := by
  induction items with
  | nil => cases h
  | cons first items ih =>
    rw [filledDepthOfItems]
    rcases List.mem_cons.mp h with rfl | h
    · exact le_max_left _ _
    · exact (ih h).trans (le_max_right _ _)

theorem filledDepth_le_members {members : Members} {name : JoinedText} {j : Json}
    (h : (name, j) ∈ members) : j.filledDepth ≤ filledDepthOfMembers members := by
  induction members with
  | nil => cases h
  | cons first members ih =>
    rw [filledDepthOfMembers]
    rcases List.mem_cons.mp h with rfl | h
    · exact le_max_left _ _
    · exact (ih h).trans (le_max_right _ _)

theorem filledDepth_lt_array {items : List Json} {item : Json} (h : item ∈ items) :
    item.filledDepth < (array items).filledDepth := by
  have hle := filledDepth_le_items h
  cases items with
  | nil => cases h
  | cons first items => exact Nat.lt_succ_of_le hle

theorem filledDepth_lt_object {members : Members} {name : JoinedText} {j : Json}
    (h : Keyed.last? name members = some j) : j.filledDepth < (object members).filledDepth := by
  have hle := filledDepth_le_members (Keyed.mem_of_last? h)
  cases members with
  | nil => cases h
  | cons first members => exact Nat.lt_succ_of_le hle

mutual

theorem filledDepth_le_depth : (j : Json) → j.filledDepth ≤ j.depth
  | null | bool _ | int _ | float _ | string _ => Nat.le_refl _
  | array [] | object [] => Nat.zero_le _
  | array (item :: items) => Nat.succ_le_succ (filledDepth_le_depthOfItems (item :: items))
  | object (member :: members) =>
    Nat.succ_le_succ (filledDepth_le_depthOfMembers (member :: members))

theorem filledDepth_le_depthOfItems : (items : List Json) →
    filledDepthOfItems items ≤ depthOfItems items
  | [] => Nat.le_refl _
  | item :: items =>
    max_le_max (filledDepth_le_depth item) (filledDepth_le_depthOfItems items)

theorem filledDepth_le_depthOfMembers : (members : List (JoinedText × Json)) →
    filledDepthOfMembers members ≤ depthOfMembers members
  | [] => Nat.le_refl _
  | (_, value) :: members =>
    max_le_max (filledDepth_le_depth value) (filledDepth_le_depthOfMembers members)

end

@[simp] theorem depth_array (items : List Json) :
    (array items).depth = depthOfItems items + 1 := rfl

@[simp] theorem depth_object (members : Members) :
    (object members).depth = depthOfMembers members + 1 := rfl

@[simp] theorem depth_string (t : JoinedText) : (string t).depth = 0 := rfl

@[simp] theorem depth_ofString (s : String) : (Json.ofString s).depth = 0 := rfl

@[simp] theorem depthOfItems_nil : depthOfItems [] = 0 := rfl

@[simp] theorem depthOfItems_cons (item : Json) (items : List Json) :
    depthOfItems (item :: items) = max item.depth (depthOfItems items) := rfl

@[simp] theorem depthOfMembers_nil : depthOfMembers [] = 0 := rfl

@[simp] theorem depthOfMembers_member (name : String) (j : Json) (members : Members) :
    depthOfMembers (member name j :: members) = max j.depth (depthOfMembers members) := rfl

@[simp] theorem depth_ofKind (kind : String) (members : Members) :
    (Json.ofKind kind members).depth = depthOfMembers members + 1 := by
  simp [Json.ofKind]

end Json

/-! ### Depth of the parts that are read -/

namespace Members

variable {α : Type} {members : Members} {name : String} {check : Json → Checked α}

theorem Has.filledDepth_lt {a : α} (h : members.Has name check a) :
    ∃ j, check j = .valid a ∧ j.filledDepth < (Json.object members).filledDepth := by
  obtain ⟨j, hj, hcheck⟩ := h
  exact ⟨j, hcheck, Json.filledDepth_lt_object hj⟩

theorem Lists.filledDepth_lt {values : List α} (h : members.Lists name check values) {a : α}
    (ha : a ∈ values) :
    ∃ j, check j = .valid a ∧ j.filledDepth + 1 < (Json.object members).filledDepth := by
  rcases h with ⟨items, hitems, hvalues⟩ | ⟨-, rfl⟩
  · obtain ⟨item, hitem, hcheck⟩ := exists_left_of_forall₂ hvalues ha
    have harray := Json.filledDepth_lt_object hitems
    have hin := Json.filledDepth_lt_array hitem
    exact ⟨item, hcheck, by omega⟩
  · cases ha

end Members

theorem Members.filledDepth_pos {members : Members} {kind : String} (h : members.kind = .ok kind) :
    0 < (Json.object members).filledDepth := by
  unfold Members.kind at h
  split at h
  · cases h
  · next t hkind => exact (Nat.zero_le _).trans_lt (Json.filledDepth_lt_object hkind)
  · next j _ hkind => exact (Nat.zero_le _).trans_lt (Json.filledDepth_lt_object hkind)

theorem EntityName.filledDepth_pos {j : Json} {name : EntityName}
    (h : EntityName.check j = .valid name) : 0 < j.filledDepth := by
  cases j with
  | object members =>
    rw [EntityName.check] at h
    cases hkind : Members.kind members with
    | ok kind => exact Members.filledDepth_pos hkind
    | error cause =>
      rw [hkind] at h
      cases h
  | _ => simp [EntityName.check, Checked.fault_ne_valid] at h

/-- A property of an accepted request is read from an item of the list under its group. -/
theorem Request.exists_element {j : Json} {r : Request} (h : Request.check j = .valid r)
    {name : Text} {properties : List Property} (hgroup : r.groups.lookup name = some properties)
    {p : Property} (hp : p ∈ properties) :
    ∃ (members entries : Members) (group : JoinedText) (items : List Json) (element : Json),
      j = .object members ∧ members.last? "types" = some (.object entries) ∧
      Keyed.last? group entries = some (.array items) ∧ element ∈ items ∧
      Property.check element = .valid p := by
  cases j with
  | object members =>
    obtain ⟨hgroups, -, -⟩ := Request.check_object_eq_valid.mp h
    have hmem : (name, properties) ∈ r.groups := by
      obtain ⟨before, after, heq, -⟩ := List.lookup_eq_some_iff.mp hgroup
      simp [heq]
    obtain ⟨s, rfl⟩ : ∃ s : String, name = s := (Groups.areNamed_of_check hgroups).strings _ hmem
    rw [groupsOf] at hgroups
    cases htypes : Members.last? members "types" with
    | none =>
      rw [htypes, Option.getD_none] at hgroups
      have hlookup := Groups.lookup_of_check hgroups s
      rw [JoinedText.points_ofString, hgroup] at hlookup
      cases hlookup
    | some types =>
      rw [htypes, Option.getD_some] at hgroups
      cases types with
      | object entries =>
        have hlookup := Groups.lookup_of_check hgroups s
        rw [JoinedText.points_ofString, hgroup, Option.map_some] at hlookup
        obtain ⟨list, hlist, hcheck⟩ := Option.map_eq_some_iff.mp hlookup.symm
        obtain ⟨items, rfl, hitems⟩ := Json.checkList_eq_valid.mp hcheck
        obtain ⟨element, helement, hvalid⟩ := exists_left_of_forall₂ hitems hp
        exact ⟨members, entries, s, items, element, rfl, htypes, hlist, helement, hvalid⟩
      | _ => cases hgroups
  | _ => cases h

/-- A property of an accepted request is read from a part three levels down. -/
theorem Request.filledDepth_of_check {j : Json} {r : Request} (h : Request.check j = .valid r)
    {name : Text} {properties : List Property} (hgroup : r.groups.lookup name = some properties)
    {p : Property} (hp : p ∈ properties) :
    ∃ element, Property.check element = .valid p ∧ element.filledDepth + 3 ≤ j.filledDepth := by
  obtain ⟨members, entries, group, items, element, rfl, htypes, hlist, helement, hvalid⟩ :=
    Request.exists_element h hgroup hp
  have hitem := Json.filledDepth_lt_array helement
  have hentry := Json.filledDepth_lt_object hlist
  have hmember := Json.filledDepth_lt_object htypes
  exact ⟨element, hvalid, by omega⟩

end PropValidators
