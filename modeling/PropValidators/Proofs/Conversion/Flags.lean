import PropValidators.Proofs.Conversion.Comparison
import PropValidators.Proofs.Document.Edit
/-!
What the flags of property signatures are for: they decide which validators are marked as required,
at every depth, and nothing else. No flag, a null one and a false one say the same.
-/
namespace PropValidators

mutual

/-- A type with the flag of every property signature in it replaced. -/
def TypeExpr.mapFlags (f : Option Bool → Option Bool) : TypeExpr → TypeExpr
  | .reference name arguments => .reference name (TypeExpr.listMapFlags f arguments)
  | .array element => .array (element.mapFlags f)
  | .object members => .object (Member.listMapFlags f members)
  | .union types => .union (TypeExpr.listMapFlags f types)
  | .intersection types => .intersection (TypeExpr.listMapFlags f types)
  | .parenthesized inner => .parenthesized (inner.mapFlags f)
  | .string => .string
  | .number => .number
  | .boolean => .boolean
  | .symbol => .symbol
  | .function => .function
  | .literal value => .literal value
  | .other description => .other description

def TypeExpr.listMapFlags (f : Option Bool → Option Bool) : List TypeExpr → List TypeExpr
  | [] => []
  | type :: types => type.mapFlags f :: TypeExpr.listMapFlags f types

def Member.mapFlags (f : Option Bool → Option Bool) : Member → Member
  | .property p => .property (p.mapFlags f)
  | .index none => .index none
  | .index (some type) => .index (some (type.mapFlags f))
  | .method key => .method key

def Member.listMapFlags (f : Option Bool → Option Bool) : List Member → List Member
  | [] => []
  | member :: members => member.mapFlags f :: Member.listMapFlags f members

def Property.mapFlags (f : Option Bool → Option Bool) : Property → Property
  | .mk key none optional => .mk key none (f optional)
  | .mk key (some type) optional => .mk key (some (type.mapFlags f)) (f optional)

end

def Groups.mapFlags (f : Option Bool → Option Bool) (groups : Groups) : Groups :=
  groups.map fun group => (group.1, group.2.map (Property.mapFlags f))

/-- No flag whatever it was. -/
def noFlag (_ : Option Bool) : Option Bool := none

/-- What a flag says: none and false say the same. -/
def plainFlag (optional : Option Bool) : Option Bool :=
  if optional = some true then some true else none

mutual

/-- A validator without any mark of being required in it. -/
def Validator.unmarked : Validator → Validator
  | .member name => .member name
  | .call factory arguments => .call factory (Argument.listUnmarked arguments)
  | .required v => v.unmarked

def Argument.listUnmarked : List Argument → List Argument
  | [] => []
  | .validator v :: arguments => .validator v.unmarked :: Argument.listUnmarked arguments
  | .array elements :: arguments =>
    .array (Element.listUnmarked elements) :: Argument.listUnmarked arguments
  | .object properties :: arguments =>
    .object (Assignment.listUnmarked properties) :: Argument.listUnmarked arguments

def Element.listUnmarked : List Element → List Element
  | [] => []
  | .validator v :: elements => .validator v.unmarked :: Element.listUnmarked elements
  | .literal value :: elements => .literal value :: Element.listUnmarked elements

def Assignment.listUnmarked : List Assignment → List Assignment
  | [] => []
  | .mk key value :: assignments => .mk key value.unmarked :: Assignment.listUnmarked assignments

end

/-! ### Validators without marks -/

@[simp] theorem Element.listUnmarked_validators (vs : List Validator) :
    Element.listUnmarked (vs.map .validator) = (vs.map Validator.unmarked).map .validator := by
  induction vs with
  | nil => rfl
  | cons v vs ih => simp [listUnmarked, ih]

theorem Assignment.listUnmarked_eq (assignments : List Assignment) :
    listUnmarked assignments = assignments.map (mapValue Validator.unmarked) := by
  induction assignments with
  | nil => rfl
  | cons a assignments ih =>
    obtain ⟨key, value⟩ := a
    rw [listUnmarked, ih, List.map_cons]
    rfl

theorem Validator.compositional_unmarked : Compositional unmarked where
  callOne factory v w h := by simp [callOne, unmarked, Argument.listUnmarked, h]
  oneOfType vs ws h := by simp [callArray, unmarked, Argument.listUnmarked, h]
  shape as bs h := by simp [unmarked, Argument.listUnmarked, Assignment.listUnmarked_eq, h]

@[simp] theorem Validator.unmarked_require (v : Validator) (optional : Option Bool) :
    (v.require optional).unmarked = v.unmarked := by
  unfold require
  split <;> rfl

theorem Validator.require_plainFlag (v : Validator) (optional : Option Bool) :
    v.require (plainFlag optional) = v.require optional := by
  unfold plainFlag
  split
  · next h => rw [h]
  · next h => rw [require, require, if_neg h, if_neg nofun]

/-! ### Types with other flags -/

section MapFlags

variable {f : Option Bool → Option Bool}

theorem TypeExpr.listMapFlags_eq (types : List TypeExpr) :
    listMapFlags f types = types.map (mapFlags f) := by
  induction types with
  | nil => rfl
  | cons type types ih => rw [listMapFlags, ih, List.map_cons]

theorem TypeExpr.kind_mapFlags (type : TypeExpr) : (type.mapFlags f).kind = type.kind := by
  cases type <;> rfl

theorem allLiterals?_mapFlags (types : List TypeExpr) :
    allLiterals? (types.map (TypeExpr.mapFlags f)) = allLiterals? types :=
  allLiterals?_map fun type _ => by cases type <;> rfl

theorem Member.listMapFlags_eq (members : List Member) :
    listMapFlags f members = members.map (mapFlags f) := by
  induction members with
  | nil => rfl
  | cons member members ih => rw [listMapFlags, ih, List.map_cons]

theorem propertiesOf_mapFlags (members : List Member) :
    propertiesOf (Member.listMapFlags f members) =
      (propertiesOf members).map (Property.mapFlags f) := by
  rw [Member.listMapFlags_eq]
  refine propertiesOf_map (fun member => ?_) members
  cases member with
  | index type => cases type <;> rfl
  | _ => rfl

theorem IsShape.mapFlags {members : List Member} (h : IsShape members) :
    IsShape (Member.listMapFlags f members) := by
  rw [Member.listMapFlags_eq]
  refine h.map fun member type heq => ?_
  cases member with
  | index type => exact ⟨type, rfl⟩
  | _ => cases heq

theorem Groups.lookup_mapFlags (groups : Groups) (name : Text) :
    (groups.mapFlags f).lookup name =
      (groups.lookup name).map (List.map (Property.mapFlags f)) := by
  induction groups with
  | nil => rfl
  | cons group groups ih =>
    rw [mapFlags, List.map_cons, List.lookup_cons, List.lookup_cons]
    split
    · rfl
    · exact ih

/-- Flags make no difference to a view of marked validators. -/
def Overlooked (f : Option Bool → Option Bool) (view : Validator → Validator) : Prop :=
  ∀ optional v w, view v = view w → view (v.require (f optional)) = view (w.require optional)

variable {view : Validator → Validator} {setting : Setting}

theorem Property.convertAlike_mapFlags (hflags : Overlooked f view) {p : Property}
    (h : ∀ type, p.type = some type →
      (type.mapFlags f).ConvertAlike view setting setting type) :
    (p.mapFlags f).ConvertAlike view setting setting p := by
  obtain ⟨key, type, optional⟩ := p
  cases type with
  | none => exact ⟨rfl, .none, hflags optional⟩
  | some type => exact ⟨rfl, .some ⟨type.kind_mapFlags, h type rfl⟩, hflags optional⟩

/-- A type converts alike with other flags, as long as they make no difference in the view. -/
theorem alike_mapFlags (hview : Validator.Compositional view) (hflags : Overlooked f view)
    (inParentheses : Bool) (type : TypeExpr) :
    (convertWithin setting inParentheses (type.mapFlags f)).Alike (Option.map view)
      (convertWithin setting inParentheses type) := by
  induction inParentheses, type using TypeExpr.convertedRec with
  | string | number | boolean | symbol | function | empty => exact .refl _
  | reference | literal | index | nested | other => exact .refl _
  | array b element ih => exact alike_array hview b b ih
  | indexed b type ih => exact alike_indexed hview b b ih
  | shape b members hshape ih =>
    refine alike_shape hview b b hshape.mapFlags hshape ?_
    rw [propertiesOf_mapFlags, List.forall₂_map_left_iff, List.forall₂_same]
    exact fun p hp => Property.convertAlike_mapFlags hflags (ih p hp)
  | union b types ih | intersection b types ih =>
    rw [TypeExpr.mapFlags, TypeExpr.listMapFlags_eq, convertWithin, convertWithin]
    refine alike_choice hview (allLiterals?_mapFlags types) ?_
    rw [List.forall₂_map_left_iff, List.forall₂_same]
    exact ih
  | parenthesized inner ih => exact ih

theorem propertiesAlike_mapFlags (hview : Validator.Compositional view)
    (hflags : Overlooked f view) (properties : List Property) :
    List.Forall₂ (Property.ConvertAlike view setting setting)
      (properties.map (Property.mapFlags f)) properties := by
  rw [List.forall₂_map_left_iff, List.forall₂_same]
  exact fun p _ => Property.convertAlike_mapFlags hflags fun type _ =>
    alike_mapFlags hview hflags false type

theorem groupsAlike_mapFlags (hview : Validator.Compositional view) (hflags : Overlooked f view)
    (groups : Groups) (names : List Text) :
    (groups.mapFlags f).ConvertAlike view setting setting groups names := by
  intro name _
  rw [Groups.lookup_mapFlags]
  cases groups.lookup name with
  | none => exact .none
  | some properties => exact .some (propertiesAlike_mapFlags hview hflags properties)

/-! ### Two types, lists or mappings that differ in flags -/

theorem alike_of_mapFlags_eq (hview : Validator.Compositional view) (hflags : Overlooked f view)
    {t u : TypeExpr} (h : t.mapFlags f = u.mapFlags f) :
    (convert setting t).Alike (Option.map view) (convert setting u) := by
  have hright : (convert setting (u.mapFlags f)).Alike (Option.map view) (convert setting u) :=
    alike_mapFlags hview hflags false u
  rw [← h] at hright
  exact (alike_mapFlags hview hflags false t).symm.trans hright

theorem propertiesAlike_of_mapFlags_eq (hview : Validator.Compositional view)
    (hflags : Overlooked f view) {ps qs : List Property}
    (h : ps.map (Property.mapFlags f) = qs.map (Property.mapFlags f)) :
    (convertProperties setting ps).Alike (List.map (Assignment.mapValue view))
      (convertProperties setting qs) := by
  have hright := alike_convertProperties (s := setting) (t := setting)
    (propertiesAlike_mapFlags hview hflags qs)
  rw [← h] at hright
  exact (alike_convertProperties (propertiesAlike_mapFlags hview hflags ps)).symm.trans hright

theorem selectionAlike_of_mapFlags_eq (hview : Validator.Compositional view)
    (hflags : Overlooked f view) {groups groups' : Groups}
    (h : groups.mapFlags f = groups'.mapFlags f) (names : List Text) :
    (convertSelection setting groups names).Alike (List.map (Assignment.mapValue view))
        (convertSelection setting groups' names) ∧
      findOmissions setting groups names = findOmissions setting groups' names := by
  have hleft : (groups.mapFlags f).ConvertAlike view setting setting groups names :=
    groupsAlike_mapFlags hview hflags groups names
  have hright : (groups'.mapFlags f).ConvertAlike view setting setting groups' names :=
    groupsAlike_mapFlags hview hflags groups' names
  rw [h] at hleft
  exact ⟨hleft.alike_convertSelection.symm.trans hright.alike_convertSelection,
    hleft.findOmissions_eq.symm.trans hright.findOmissions_eq⟩

end MapFlags

theorem overlooked_unmarked (f : Option Bool → Option Bool) :
    Overlooked f Validator.unmarked := by
  intro optional v w h
  rw [Validator.unmarked_require, Validator.unmarked_require, h]

theorem overlooked_plainFlag : Overlooked plainFlag id := by
  rintro optional v w rfl
  exact v.require_plainFlag optional

/-! ### Flags in documents -/

/-- In the document of a signature, alone or among members, a null flag may be left out. -/
theorem check_null_flag {before after : Members}
    (h : ∀ entry ∈ before ++ after, entry.1 ≠ ("optional" : JoinedText)) :
    let written := before ++ Json.member "optional" .null :: after
    Property.check (.object (before ++ after)) = Property.check (.object written) ∧
      (written.kind = .ok "property" →
        Member.check (.object (before ++ after)) = Member.check (.object written)) := by
  intro written
  let flag : Field := ⟨"optional", .leaf, some .null⟩
  have hmem : flag ∈ Place.propertyFields := by simp [flag, Place.propertyFields]
  constructor
  · exact @Place.check_leaveOut .property before after _ flag .null rfl
      (List.mem_cons_of_mem _ hmem) rfl h
  · intro hkind
    have hfields : Place.fields? .member written = some (.kind :: Place.propertyFields) := by
      change Place.variant? Place.memberFields written = _
      rw [Place.variant?, hkind]
      rfl
    exact @Place.check_leaveOut .member before after _ flag .null hfields
      (List.mem_cons_of_mem _ hmem) rfl h

/-- Flags of property signatures, at whatever depth, decide only what is marked as required. Types,
lists of properties and mappings that differ in nothing but flags convert to the same once all marks
are removed, or neither of two types converts; the records and the look-ups are the same, and so are
the omissions. No flag and a false one have the same result, marks included, and in a document no
flag and a null one are the same. -/
theorem flags_decide_only_marks (setting : Setting) :
    (∀ t u : TypeExpr, t.mapFlags noFlag = u.mapFlags noFlag →
      (convert setting t).value.isSome = (convert setting u).value.isSome ∧
      (convert setting t).Alike (Option.map Validator.unmarked) (convert setting u)) ∧
    (∀ ps qs : List Property,
      ps.map (Property.mapFlags noFlag) = qs.map (Property.mapFlags noFlag) →
        (convertProperties setting ps).Alike (List.map (Assignment.mapValue Validator.unmarked))
          (convertProperties setting qs)) ∧
    (∀ (groups groups' : Groups) (names : List Text),
      groups.mapFlags noFlag = groups'.mapFlags noFlag →
        (convertSelection setting groups names).Alike
            (List.map (Assignment.mapValue Validator.unmarked))
            (convertSelection setting groups' names) ∧
          findOmissions setting groups names = findOmissions setting groups' names) ∧
    (∀ t u : TypeExpr, t.mapFlags plainFlag = u.mapFlags plainFlag →
      convert setting t = convert setting u) ∧
    (∀ ps qs : List Property,
      ps.map (Property.mapFlags plainFlag) = qs.map (Property.mapFlags plainFlag) →
        convertProperties setting ps = convertProperties setting qs) ∧
    (∀ (groups groups' : Groups) (names : List Text),
      groups.mapFlags plainFlag = groups'.mapFlags plainFlag →
        convertSelection setting groups names = convertSelection setting groups' names) ∧
    (∀ before after : Members,
      (∀ entry ∈ before ++ after, entry.1 ≠ ("optional" : JoinedText)) →
        let written := before ++ Json.member "optional" .null :: after
        Property.check (.object (before ++ after)) = Property.check (.object written) ∧
          (written.kind = .ok "property" →
            Member.check (.object (before ++ after)) = Member.check (.object written))) := by
  have hunmarked := Validator.compositional_unmarked
  have hid := Validator.compositional_id
  have hno := overlooked_unmarked noFlag
  have hplain := overlooked_plainFlag
  refine ⟨fun t u h => ?_, fun ps qs h => propertiesAlike_of_mapFlags_eq hunmarked hno h,
    fun groups groups' names h => selectionAlike_of_mapFlags_eq hunmarked hno h names,
    fun t u h => ?_, fun ps qs h => ?_, fun groups groups' names h => ?_,
    fun before after h => check_null_flag h⟩
  · have halike : (convert setting t).Alike (Option.map Validator.unmarked) (convert setting u) :=
      alike_of_mapFlags_eq hunmarked hno h
    refine ⟨?_, halike⟩
    rw [← Option.isSome_map (f := Validator.unmarked), halike.value_eq, Option.isSome_map]
  · refine Traced.Alike.eq ?_
    rw [← Option.map_id]
    exact alike_of_mapFlags_eq hid hplain h
  · refine Traced.Alike.eq ?_
    rw [← List.map_id_fun, ← Assignment.mapValue_id]
    exact propertiesAlike_of_mapFlags_eq hid hplain h
  · refine Traced.Alike.eq ?_
    rw [← List.map_id_fun, ← Assignment.mapValue_id]
    exact (selectionAlike_of_mapFlags_eq hid hplain h names).1

/-- A list of shapes in shapes with the mark on the outer or the inner property: without marks they
convert to the same. With a false flag in place of none nothing changes. -/
theorem nested_flags_decide_only_marks :
    let setting : Setting := ⟨defaultImportName, EntityName.flatten⟩
    let list (outer inner : Option Bool) : TypeExpr :=
      .array (.object
        [.property (.mk (.identifier "p") (some (.object
          [.property (.mk (.identifier "q") (some .string) inner)])) outer)])
    (list (some true) none).mapFlags noFlag = (list none (some true)).mapFlags noFlag ∧
      (convert setting (list (some true) none)).value ≠
        (convert setting (list none (some true))).value ∧
      (convert setting (list (some true) none)).value.map Validator.unmarked =
        (convert setting (list none (some true))).value.map Validator.unmarked ∧
      (list (some true) (some false)).mapFlags plainFlag =
        (list (some true) none).mapFlags plainFlag ∧
      convert setting (list (some true) (some false)) =
        convert setting (list (some true) none) := by
  intro setting list
  obtain ⟨htypes, -, -, hplain, -⟩ := flags_decide_only_marks setting
  exact ⟨rfl, nofun, (htypes _ _ rfl).2.value_eq, rfl, hplain _ _ rfl⟩

end PropValidators
