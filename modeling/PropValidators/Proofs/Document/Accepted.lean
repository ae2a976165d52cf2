import PropValidators.Proofs.Document.Place
import PropValidators.Proofs.Keyed
/-!
What a document is made of that is accepted: every part that counts is accepted as well, and the
value is put together from what the parts stand for.
-/
namespace PropValidators

section Forall₂

variable {α β : Type} {R : α → β → Prop} {xs : List α} {ys : List β}

theorem exists_right_of_forall₂ (h : List.Forall₂ R xs ys) {x : α} (hx : x ∈ xs) :
    ∃ y ∈ ys, R x y := by
  induction h with
  | nil => cases hx
  | @cons x' y' xs ys hxy _ ih =>
    rcases List.mem_cons.mp hx with rfl | hx
    · exact ⟨y', List.mem_cons_self, hxy⟩
    · obtain ⟨y, hy, hxy⟩ := ih hx
      exact ⟨y, List.mem_cons_of_mem _ hy, hxy⟩

theorem exists_left_of_forall₂ (h : List.Forall₂ R xs ys) {y : β} (hy : y ∈ ys) :
    ∃ x ∈ xs, R x y :=
  exists_right_of_forall₂ h.flip hy

end Forall₂

namespace Checked

variable {α β γ : Type}

theorem map_eq_valid {f : α → β} {x : Checked α} {b : β} :
    f <$> x = valid b ↔ ∃ a, x = valid a ∧ f a = b := by
  cases x with
  | valid a => simp
  | faulty first others =>
    constructor
    · nofun
    · rintro ⟨a, ⟨⟩, -⟩

theorem combine_eq_valid {f : α → β → γ} {x : Checked α} {y : Checked β} {c : γ} :
    combine f x y = valid c ↔ ∃ a b, x = valid a ∧ y = valid b ∧ f a b = c := by
  cases x with
  | valid a => cases y <;> simp [combine]
  | faulty first others => simp [combine]

theorem seq_eq_valid {f : Checked (α → β)} {x : Checked α} {b : β} :
    f <*> x = valid b ↔ ∃ g a, f = valid g ∧ x = valid a ∧ g a = b :=
  combine_eq_valid

theorem underName_eq_valid {name : String} {x : Checked α} {a : α} :
    x.underName name = valid a ↔ x = valid a := by
  cases x <;> simp [underName, under]

theorem fault_ne_valid {cause : FaultCause} {a : α} : (fault cause : Checked α) ≠ valid a := nofun

end Checked

namespace Members

variable {α : Type}

/-- A member is there and is read as this value. -/
def Has (members : Members) (name : String) (check : Json → Checked α) (a : α) : Prop :=
  ∃ j, members.last? name = some j ∧ check j = .valid a

/-- A member with a list is there and its items are read as these values, or it is not there and
there are none. -/
def Lists (members : Members) (name : String) (check : Json → Checked α) (values : List α) : Prop :=
  (∃ items, members.last? name = some (.array items) ∧
    List.Forall₂ (fun item a => check item = .valid a) items values) ∨
  members.last? name = none ∧ values = []

variable {members : Members} {name : String} {check : Json → Checked α} {a : α}

theorem required_eq_valid :
    members.required name (fun j _ => check j) = .valid a ↔ members.Has name check a := by
  rw [required_eq, Checked.underName_eq_valid, Has]
  cases members.last? name with
  | some j => simp
  | none => simp [Checked.fault_ne_valid]

theorem optional_eq_valid {default : α} :
    members.optional name default (fun j _ => check j) = .valid a ↔
      members.Has name check a ∨ members.last? name = none ∧ default = a := by
  rw [optional_eq, Has]
  cases members.last? name with
  | some j => simp [Checked.underName_eq_valid]
  | none => simp

theorem optional_list_eq_valid {values : List α} :
    members.optional name [] (fun j _ => j.checkList fun item _ => check item) = .valid values ↔
      members.Lists name check values := by
  simp only [optional_eq_valid, Has, Json.checkList_eq_valid, Lists]
  constructor
  · rintro (⟨-, hj, items, rfl, hitems⟩ | ⟨hnone, rfl⟩)
    · exact .inl ⟨items, hj, hitems⟩
    · exact .inr ⟨hnone, rfl⟩
  · rintro (⟨items, hj, hitems⟩ | ⟨hnone, rfl⟩)
    · exact .inl ⟨_, hj, items, rfl, hitems⟩
    · exact .inr ⟨hnone, rfl⟩

/-- An annotation that is there is a type expression. -/
theorem annotation_eq_valid {type : TypeExpr} :
    members.optional name none (fun j _ => TypeExpr.checkOrNull j) = .valid (some type) ↔
      members.Has name TypeExpr.check type := by
  have hcheck (j : Json) : TypeExpr.checkOrNull j = .valid (some type) ↔
      TypeExpr.check j = .valid type := by
    cases j with
    | null => simp [TypeExpr.checkOrNull, TypeExpr.check, Checked.fault_ne_valid]
    | _ => simp [TypeExpr.checkOrNull, Checked.map_eq_valid]
  simp [optional_eq_valid, Has, hcheck]

end Members

/-! ### Types, members and properties -/

/-- The parts that a type expression is read from, by its kind. -/
def TypeExpr.IsReadFrom (members : Members) : TypeExpr → Prop
  | .reference name arguments =>
    members.Has "type_name" EntityName.check name ∧
      members.Lists "type_arguments" TypeExpr.check arguments
  | .array element => members.Has "element_type" TypeExpr.check element
  | .literal value => members.Has "literal" Literal.checkRecord value
  | .object found => members.Lists "members" Member.check found
  | .union types | .intersection types => members.Lists "types" TypeExpr.check types
  | .parenthesized inner => members.Has "type_annotation" TypeExpr.check inner
  | .string | .number | .boolean | .symbol | .function | .other _ => True

theorem TypeExpr.isReadFrom_of_check {j : Json} {type : TypeExpr}
    (h : TypeExpr.check j = .valid type) :
    ∃ members, j = .object members ∧ Members.kind members = .ok type.kind ∧
      type.IsReadFrom members := by
  cases j with
  | object members =>
    refine ⟨members, rfl, ?_⟩
    rw [TypeExpr.check] at h
    split at h
    all_goals
      simp only [Checked.underName_eq_valid, Checked.seq_eq_valid, Checked.map_eq_valid,
        Members.required_eq_valid, Members.optional_list_eq_valid, Checked.valid.injEq,
        Checked.fault_ne_valid] at h
    -- What is left are the cases of the thirteen kinds, in the order of the check.
    all_goals rename_i hkind
    case h_1 | h_2 | h_3 | h_4 | h_5 =>
      subst h
      exact ⟨hkind, trivial⟩
    case h_6 =>
      obtain ⟨-, arguments, ⟨name, hname, rfl⟩, harguments, rfl⟩ := h
      exact ⟨hkind, hname, harguments⟩
    case h_13 =>
      obtain ⟨description, -, rfl⟩ := h
      exact ⟨hkind, trivial⟩
    all_goals
      obtain ⟨part, hpart, rfl⟩ := h
      exact ⟨hkind, hpart⟩
  | _ => simp [TypeExpr.check, Checked.fault_ne_valid] at h

theorem Property.has_of_check {members : Members} {p : Property}
    (h : Property.checkMembers members = .valid p) :
    members.Has "key" PropertyKey.check p.key ∧
      ∀ type, p.type = some type → members.Has "type_annotation" TypeExpr.check type := by
  simp only [Property.checkMembers, Checked.seq_eq_valid, Checked.map_eq_valid,
    Members.required_eq_valid] at h
  obtain ⟨-, flag, ⟨-, annotation, ⟨key, hkey, rfl⟩, hannotation, rfl⟩, -, rfl⟩ := h
  refine ⟨hkey, fun type htype => ?_⟩
  obtain rfl : annotation = some type := htype
  exact Members.annotation_eq_valid.mp hannotation

theorem Property.exists_members_of_check {j : Json} {p : Property}
    (h : Property.check j = .valid p) :
    ∃ members, j = .object members ∧ Property.checkMembers members = .valid p := by
  cases j with
  | object members =>
    rw [Property.check, Checked.combine_eq_valid] at h
    obtain ⟨-, found, -, hfound, rfl⟩ := h
    exact ⟨members, rfl, hfound⟩
  | _ => cases h

/-- The parts that a member is read from, by its kind. -/
def Member.IsReadFrom (members : Members) : Member → Prop
  | .property p => Property.checkMembers members = .valid p
  | .index type =>
    members.optional "type_annotation" none (fun j _ => TypeExpr.checkOrNull j) = .valid type
  | .method key => members.Has "key" PropertyKey.check key

theorem Member.isReadFrom_of_check {j : Json} {member : Member}
    (h : Member.check j = .valid member) :
    ∃ members, j = .object members ∧ member.IsReadFrom members := by
  cases j with
  | object members =>
    refine ⟨members, rfl, ?_⟩
    rw [Member.check] at h
    split at h
    all_goals
      simp only [Checked.underName_eq_valid, Checked.map_eq_valid, Members.required_eq_valid,
        Checked.fault_ne_valid] at h
    all_goals
      obtain ⟨part, hpart, rfl⟩ := h
      exact hpart
  | _ => simp [Member.check, Checked.fault_ne_valid] at h

/-! ### Requests -/

namespace Groups

/-- A group as a document has it and as it is read. -/
def IsReadAs (entry : JoinedText × Json) (group : Text × List Property) : Prop :=
  (∃ s : String, entry.1 = s) ∧ entry.1.points = group.1 ∧
    Property.checkList entry.2 = .valid group.2

theorem checkEntry_eq_valid {name : JoinedText} {value : Json} {group : Text × List Property} :
    checkEntry name value = .valid group ↔ IsReadAs (name, value) group := by
  obtain ⟨t, properties⟩ := group
  rw [checkEntry, IsReadAs]
  cases hname : name.points.toString? with
  | none =>
    have hnone : ¬∃ s : String, name = s := by
      rintro ⟨s, rfl⟩
      simp at hname
    simp [Checked.fault_ne_valid, hnone]
  | some s =>
    have hsome : ∃ s : String, name = s :=
      ⟨s, JoinedText.points_inj.mp (Text.toString?_eq_some.mp hname)⟩
    simp [Checked.underName_eq_valid, Checked.map_eq_valid, hsome, and_comm]

/-- Groups are accepted if and only if each of them is, those that later ones replace included. -/
theorem checkEntries_eq_valid {entries : Members} {groups : List (Text × List Property)} :
    checkEntries entries = .valid groups ↔ List.Forall₂ IsReadAs entries groups := by
  induction entries generalizing groups with
  | nil =>
    rw [checkEntries, List.forall₂_nil_left_iff, Checked.valid.injEq, eq_comm]
  | cons entry entries ih =>
    obtain ⟨name, value⟩ := entry
    rw [checkEntries, Checked.combine_eq_valid, List.forall₂_cons_left_iff]
    constructor
    · rintro ⟨group, groups, hgroup, hgroups, rfl⟩
      exact ⟨group, groups, checkEntry_eq_valid.mp hgroup, ih.mp hgroups, rfl⟩
    · rintro ⟨group, groups, hgroup, hgroups, rfl⟩
      exact ⟨group, groups, checkEntry_eq_valid.mpr hgroup, ih.mpr hgroups, rfl⟩

theorem check_object_eq_valid {entries : Members} {groups : Groups} :
    check (.object entries) = .valid groups ↔
      ∃ found, List.Forall₂ IsReadAs entries found ∧ Keyed.settled found = groups := by
  simp only [check, Checked.map_eq_valid, checkEntries_eq_valid]

/-- All that keeps groups from being accepted are groups that are not. -/
theorem exists_check_object {entries : Members} :
    (∃ groups, check (.object entries) = .valid groups) ↔
      ∀ entry ∈ entries, ∃ group, IsReadAs entry group := by
  simp only [check_object_eq_valid]
  constructor
  · rintro ⟨-, found, hfound, -⟩ entry hentry
    obtain ⟨group, -, hgroup⟩ := exists_right_of_forall₂ hfound hentry
    exact ⟨group, hgroup⟩
  · intro h
    obtain ⟨found, hfound⟩ : ∃ found, List.Forall₂ IsReadAs entries found := by
      induction entries with
      | nil => exact ⟨[], .nil⟩
      | cons entry entries ih =>
        obtain ⟨⟨group, hgroup⟩, hentries⟩ := List.forall_mem_cons.mp h
        obtain ⟨found, hfound⟩ := ih hentries
        exact ⟨group :: found, .cons hgroup hfound⟩
    exact ⟨_, found, hfound, rfl⟩

/-- Groups whose names are strings and no two of which have one name. -/
structure AreNamed (groups : Groups) : Prop where
  nodup : (groups.map Prod.fst).Nodup
  strings : ∀ group ∈ groups, ∃ s : String, group.1 = s

/-- Groups that are checked have strings as names and repeat none of them. -/
theorem areNamed_of_check {j : Json} {groups : Groups} (h : check j = .valid groups) :
    groups.AreNamed := by
  cases j with
  | object entries =>
    obtain ⟨found, hfound, rfl⟩ := check_object_eq_valid.mp h
    refine ⟨Keyed.nodup_settled found, fun group hgroup => ?_⟩
    have hmem : group.1 ∈ found.map Prod.fst := by
      rw [← List.mem_eraseDups, ← Keyed.map_fst_settled found]
      exact List.mem_map_of_mem hgroup
    obtain ⟨entry, hentry, hname⟩ := List.mem_map.mp hmem
    obtain ⟨_, _, ⟨s, hs⟩, hpoints, -⟩ := exists_left_of_forall₂ hfound hentry
    exact ⟨s, by rw [← hname, ← hpoints, hs]; rfl⟩
  | _ => cases h

/-- What is found under a name is the group that a document has there last. -/
theorem lookup_of_check {entries : Members} {groups : Groups}
    (h : check (.object entries) = .valid groups) (name : JoinedText) :
    (groups.lookup name.points).map Checked.valid =
      (Keyed.last? name entries).map Property.checkList := by
  obtain ⟨found, hfound, rfl⟩ := check_object_eq_valid.mp h
  rw [Keyed.lookup_settled]
  clear h
  induction hfound with
  | nil => rfl
  | @cons entry group entries found hentry _ ih =>
    obtain ⟨key, value⟩ := entry
    obtain ⟨t, properties⟩ := group
    obtain ⟨-, hkey, hproperties⟩ := hentry
    dsimp only at hkey hproperties
    subst hkey
    rw [Keyed.last?_cons, Keyed.last?_cons, Option.map_or, Option.map_or, ih]
    simp only [JoinedText.points_inj]
    split <;> simp [hproperties]

/-- Each name of a group comes where a document has it first. -/
theorem names_of_check {entries : Members} {groups : Groups}
    (h : check (.object entries) = .valid groups) :
    groups.map Prod.fst = (entries.map fun entry => entry.1.points).eraseDups := by
  obtain ⟨found, hfound, rfl⟩ := check_object_eq_valid.mp h
  have hnames : found.map Prod.fst = entries.map fun entry => entry.1.points := by
    clear h
    induction hfound with
    | nil => rfl
    | cons hentry _ ih => rw [List.map_cons, List.map_cons, ih, hentry.2.1]
  rw [Keyed.map_fst_settled found, hnames]

end Groups

theorem Json.isAdmitted_of_readAdmitted? {text : String} {j : Json}
    (h : Json.readAdmitted? text = some j) : j.isAdmitted = true := by
  unfold Json.readAdmitted? at h
  split at h
  · split at h
    · cases h
      assumption
    · cases h
  · cases h

namespace Request

/-- The groups of a request document, none if it has no member for them. -/
def groupsOf (members : Members) : Json := (members.last? "types").getD (.object [])

/-- A request document is accepted if and only if its groups and its two settings are. -/
theorem check_object_eq_valid {members : Members} {r : Request} :
    check (.object members) = .valid r ↔
      Groups.check (groupsOf members) = .valid r.groups ∧
      (((members.last? "type_names").getD (.array [])).checkList fun item _ =>
        Text.ofString <$> item.checkString) = .valid r.typeNames ∧
      Option.map Text.ofString <$>
        ((members.last? "namespace_alias").getD .null).checkStringOrNull = .valid r.importName := by
  have hgroups : members.optional "types" [] (fun j _ => Groups.check j) =
      (Groups.check (groupsOf members)).underName "types" :=
    members.optional_eq_getD "types" rfl
  have himport :
      members.optional "namespace_alias" none
        (fun j _ => Option.map Text.ofString <$> j.checkStringOrNull) =
        (Option.map Text.ofString <$>
          ((members.last? "namespace_alias").getD .null).checkStringOrNull).underName
            "namespace_alias" :=
    members.optional_eq_getD "namespace_alias" rfl
  obtain ⟨groups, names, importName⟩ := r
  rw [check, hgroups, Members.optional_items, himport]
  simp only [Checked.seq_eq_valid, Checked.map_eq_valid, Checked.underName_eq_valid]
  constructor
  · rintro ⟨g, a, ⟨g', b, ⟨c, hc, rfl⟩, hb, rfl⟩, ha, heq⟩
    obtain ⟨rfl, rfl, rfl⟩ := Request.mk.inj heq
    exact ⟨hc, hb, ha⟩
  · rintro ⟨hc, hb, ha⟩
    exact ⟨_, _, ⟨_, _, ⟨_, hc, rfl⟩, hb, rfl⟩, ha, rfl⟩

theorem areNamed_of_check {j : Json} {r : Request} (h : check j = .valid r) :
    r.groups.AreNamed := by
  cases j with
  | object members => exact Groups.areNamed_of_check (check_object_eq_valid.mp h).1
  | _ => cases h

/-- A text that is a request holds an admitted document of it. -/
theorem exists_of_parse {text : String} {r : Request} (h : parse text = .valid r) :
    ∃ j : Json, j.isAdmitted = true ∧ check j = .valid r := by
  unfold parse at h
  split at h
  · next j hread => exact ⟨j, Json.isAdmitted_of_readAdmitted? hread, h⟩
  · cases h

end Request

end PropValidators
