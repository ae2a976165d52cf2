import Mathlib.Logic.Relation
import PropValidators.Proofs.Command.Settings
import PropValidators.Proofs.Conversion.Partition
import PropValidators.Proofs.Conversion.Selection
import PropValidators.Proofs.Document.Accepted
import PropValidators.Proofs.Document.Edit
/-!
Which groups of a request count: the selected ones, wherever they stand and whatever else the
request has, and all of them in the order of the document where nothing selects any.
-/
namespace PropValidators

/-! ### Changes beside a selection -/

/-- One change of the groups that a document has, by which those of the selected names stay as they
are. -/
inductive GroupChange (selected : List Text) : Members → Members → Prop
  /-- Groups change places, those of one name not among each other. -/
  | permute {entries entries' : Members} : entries.Perm entries' →
    (∀ name, entries'.filter (·.1 = name) = entries.filter (·.1 = name)) →
    GroupChange selected entries entries'
  | add {before after : Members} {name : String} {group : Json} {properties : List Property} :
    Text.ofString name ∉ selected → Property.checkList group = .valid properties →
    GroupChange selected (before ++ after) (before ++ Json.member name group :: after)
  | remove {before after : Members} {name : String} {group : Json} :
    Text.ofString name ∉ selected →
    GroupChange selected (before ++ Json.member name group :: after) (before ++ after)
  | replace {before after : Members} {name : String} {group group' : Json}
      {properties : List Property} :
    Text.ofString name ∉ selected → Property.checkList group' = .valid properties →
    GroupChange selected (before ++ Json.member name group :: after)
      (before ++ Json.member name group' :: after)

/-- Changes in a row. -/
def GroupChanges (selected : List Text) : Members → Members → Prop :=
  Relation.ReflTransGen (GroupChange selected)

section Changes

variable {selected : List Text} {entries entries' : Members}

theorem Keyed.last?_filter {κ α : Type} [DecidableEq κ] (key : κ) (entries : List (κ × α)) :
    last? key (entries.filter (·.1 = key)) = last? key entries := by
  induction entries with
  | nil => rfl
  | cons entry entries ih =>
    obtain ⟨k, value⟩ := entry
    by_cases hk : k = key
    · rw [List.filter_cons_of_pos (by simpa using hk), last?_cons, last?_cons, ih]
    · rw [List.filter_cons_of_neg (by simpa using hk), last?_cons, ih, if_neg hk, Option.or_none]

theorem GroupChange.last?_eq (h : GroupChange selected entries entries') {name : String}
    (hname : Text.ofString name ∈ selected) : entries'.last? name = entries.last? name := by
  have hne {other : String} (hother : Text.ofString other ∉ selected) :
      JoinedText.ofString other ≠ name := by
    intro heq
    exact hother (JoinedText.ofString_inj.mp heq ▸ hname)
  cases h with
  | permute _ hfilter =>
    rw [Members.last?, ← Keyed.last?_filter, hfilter, Keyed.last?_filter, Members.last?]
  | add hother _ => exact Members.last?_putIn (hne hother) _
  | remove hother => exact (Members.last?_putIn (hne hother) _).symm
  | replace hother _ =>
    exact (Members.last?_putIn (hne hother) _).trans (Members.last?_putIn (hne hother) _).symm

/-- Under a selected name the same group comes last as before the changes. -/
theorem GroupChanges.last?_eq (h : GroupChanges selected entries entries') {name : String}
    (hname : Text.ofString name ∈ selected) : entries'.last? name = entries.last? name := by
  induction h with
  | refl => rfl
  | tail _ hchange ih => exact (hchange.last?_eq hname).trans ih

theorem GroupChange.accepted (h : GroupChange selected entries entries')
    (hentries : ∀ entry ∈ entries, ∃ group, Groups.IsReadAs entry group) :
    ∀ entry ∈ entries', ∃ group, Groups.IsReadAs entry group := by
  have hput {before after : Members} {name : String} {group : Json} {properties : List Property}
      (hall : ∀ entry ∈ before ++ after, ∃ group, Groups.IsReadAs entry group)
      (hgroup : Property.checkList group = .valid properties) :
      ∀ entry ∈ before ++ Json.member name group :: after,
        ∃ group, Groups.IsReadAs entry group := by
    intro entry hentry
    rcases List.mem_cons.mp (List.perm_middle.mem_iff.mp hentry) with rfl | hentry
    · exact ⟨(Text.ofString name, properties), ⟨name, rfl⟩, rfl, hgroup⟩
    · exact hall entry hentry
  have htake {before after : Members} {taken : JoinedText × Json}
      (hall : ∀ entry ∈ before ++ taken :: after, ∃ group, Groups.IsReadAs entry group) :
      ∀ entry ∈ before ++ after, ∃ group, Groups.IsReadAs entry group :=
    fun entry hentry => hall entry (List.perm_middle.mem_iff.mpr (List.mem_cons_of_mem _ hentry))
  cases h with
  | permute hperm _ => exact fun entry hentry => hentries entry (hperm.mem_iff.mpr hentry)
  | add _ hgroup => exact hput hentries hgroup
  | remove _ => exact htake hentries
  | replace _ hgroup => exact hput (htake hentries) hgroup

/-- Groups that were accepted are accepted after the changes. -/
theorem GroupChanges.accepted (h : GroupChanges selected entries entries')
    (hentries : ∀ entry ∈ entries, ∃ group, Groups.IsReadAs entry group) :
    ∀ entry ∈ entries', ∃ group, Groups.IsReadAs entry group := by
  induction h with
  | refl => exact hentries
  | tail _ hchange ih => exact hchange.accepted ih

/-- Where no name is repeated, groups may stand in any order. -/
theorem GroupChange.of_perm (h : entries.Perm entries') (hnodup : (entries.map Prod.fst).Nodup) :
    GroupChange selected entries entries' := by
  refine .permute h fun name => ?_
  have hfilter := h.filter (·.1 = name)
  have hnames : ((entries.filter (·.1 = name)).map Prod.fst).Nodup :=
    hnodup.sublist (List.filter_sublist.map Prod.fst)
  have hname : ∀ group ∈ entries.filter (·.1 = name), group.1 = name := by simp
  -- At most one group has the name, and a list of one is the only permutation of itself.
  generalize entries.filter (·.1 = name) = groups at hfilter hnames hname
  generalize entries'.filter (·.1 = name) = groups' at hfilter
  match groups with
  | [] => exact hfilter.symm.eq_nil
  | [group] => exact List.perm_singleton.mp hfilter.symm
  | first :: second :: rest => simp [hname first, hname second] at hnames

end Changes

namespace Request

variable {selected : List Text} {members members' entries entries' : Members} {r : Request}

/-- After changes beside a selection a request is accepted as before, with the same settings and the
same groups under the selected names. -/
theorem check_of_changes (h : check (.object members) = .valid r)
    (hentries : groupsOf members = .object entries)
    (hentries' : groupsOf members' = .object entries')
    (hnames : members'.last? "type_names" = members.last? "type_names")
    (himport : members'.last? "namespace_alias" = members.last? "namespace_alias")
    (hchanges : GroupChanges selected entries entries') :
    ∃ r', check (.object members') = .valid r' ∧ r'.typeNames = r.typeNames ∧
      r'.importName = r.importName ∧
      ∀ name ∈ selected, r'.groups.lookup name = r.groups.lookup name := by
  obtain ⟨hgroups, hsettings⟩ := check_object_eq_valid.mp h
  rw [hentries] at hgroups
  obtain ⟨groups', hgroups'⟩ :=
    Groups.exists_check_object.mpr (hchanges.accepted (Groups.exists_check_object.mp ⟨_, hgroups⟩))
  refine ⟨⟨groups', r.typeNames, r.importName⟩, check_object_eq_valid.mpr ⟨?_, ?_⟩, rfl, rfl, ?_⟩
  · rw [hentries', hgroups']
  · rwa [hnames, himport]
  · intro name hname
    by_cases hstring : ∃ s : String, name = s
    · obtain ⟨s, rfl⟩ := hstring
      apply Checked.map_valid_inj.mp
      have hafter := Groups.lookup_of_check hgroups' (JoinedText.ofString s)
      have hbefore := Groups.lookup_of_check hgroups (JoinedText.ofString s)
      have hsame := hchanges.last?_eq hname
      rw [Members.last?, Members.last?] at hsame
      rw [hsame] at hafter
      exact hafter.trans hbefore.symm
    · -- A name that is no string is that of no group.
      have hnone {j : Json} {groups : Groups} (hj : Groups.check j = .valid groups) :
          groups.lookup name = none := by
        rw [List.lookup_eq_none_iff]
        intro group hgroup
        obtain ⟨s, hs⟩ := (Groups.areNamed_of_check hj).strings group hgroup
        simp only [bne_iff_ne]
        rintro rfl
        exact hstring ⟨s, hs⟩
      rw [hnone hgroups', hnone hgroups]

end Request

/-! ### Jobs -/

namespace Command

/-- The conversion of a job by any resolver of names. -/
def Job.convertBy (job : Job) (resolve : EntityName → Text) : Traced (List Assignment) :=
  convertSelection ⟨job.importName, resolve⟩ job.groups job.typeNames

/-- The search for omissions of a job by any resolver of names. -/
def Job.omissionsBy (job : Job) (resolve : EntityName → Text) : Traced (List Omission) :=
  findOmissions ⟨job.importName, resolve⟩ job.groups job.typeNames

theorem FirstNonempty.append {α : Type} {empty : α} {xs : List α} {x : α}
    (h : FirstNonempty empty xs x) (hne : x ≠ empty) (ys : List α) :
    FirstNonempty empty (xs ++ ys) x := by
  induction h with
  | none => exact absurd rfl hne
  | first xs hx => exact .first _ hx
  | later _ ih => exact .later (ih hne)

variable {options : Options} {config : Config} {r : Request}

theorem ofRequest_selected {selected : List Text}
    (h : FirstNonempty [] [options.typeNames.map .ofString, r.typeNames, config.typeNames] selected)
    (hne : selected ≠ []) : (Job.ofRequest options r config).typeNames = selected := by
  have hselected := h.append hne [r.groups.map (·.1)]
  exact hselected.unique (ofRequest_typeNames options r config)

theorem ofRequest_unselected (hoptions : options.typeNames = []) (hrequest : r.typeNames = [])
    (hconfig : config.typeNames = []) :
    (Job.ofRequest options r config).typeNames = r.groups.map Prod.fst := by
  have hall : FirstNonempty [] [r.groups.map Prod.fst] (r.groups.map Prod.fst) := by
    by_cases hgroups : r.groups.map Prod.fst = []
    · rw [hgroups]
      exact .later .none
    · exact .first [] hgroups
  have hfirst := ofRequest_typeNames options r config
  rw [selections, hoptions, hrequest, hconfig, List.map_nil] at hfirst
  exact FirstNonempty.unique (.later (.later (.later hall))) hfirst

/-! ### Omissions of groups that are there -/

theorem reason_ne_undeclared {setting : Setting} {group : Text} {properties : List Property}
    {o : Omission} (h : o ∈ (omissionsOf setting group properties).value) :
    o.reason ≠ .undeclared := by
  rw [omissionsOf_value, List.mem_filterMap] at h
  obtain ⟨p, -, ho⟩ := h
  rw [omissionOf_value_fate] at ho
  rcases Stop.fate_property setting group p with
    ⟨type, v, -, -, hfate⟩ | ⟨-, hfate⟩ | ⟨type, -, -, hfate⟩
  · rw [hfate] at ho
    cases ho
  · rw [hfate] at ho
    cases ho
    nofun
  · rw [hfate] at ho
    cases ho
    nofun

/-- Only the selected groups of a request matter. Where options, request or configuration select
names, groups may change places and others may be added, removed and replaced: the request is
accepted as before, and the converted props, the omissions, the records and the look-ups are the
same, by any resolver. For names in two lists they are those for the first and then those for the
second. Where nothing selects names, each group is converted once, in the order in which the names
first occur in the document and with the properties that come last under its name, and no omission
is of a group that is not declared. -/
theorem only_selected_groups_matter (options : Options) (config : Config) :
    (∀ (members entries : Members) r selected, Request.check (.object members) = .valid r →
      Request.groupsOf members = .object entries →
      FirstNonempty [] [options.typeNames.map .ofString, r.typeNames, config.typeNames] selected →
      selected ≠ [] →
      ∀ members' entries' : Members, Request.groupsOf members' = .object entries' →
        members'.last? "type_names" = members.last? "type_names" →
        members'.last? "namespace_alias" = members.last? "namespace_alias" →
        GroupChanges selected entries entries' →
        ∃ r', Request.check (.object members') = .valid r' ∧
          let job := Job.ofRequest options r config
          let job' := Job.ofRequest options r' config
          job.typeNames = selected ∧ ∀ resolve, job'.convertBy resolve = job.convertBy resolve ∧
            job'.omissionsBy resolve = job.omissionsBy resolve) ∧
    (∀ setting groups first second,
      convertSelection setting groups (first ++ second) =
          .concat [convertSelection setting groups first, convertSelection setting groups second] ∧
        findOmissions setting groups (first ++ second) =
          .concat [findOmissions setting groups first, findOmissions setting groups second]) ∧
    (∀ (members entries : Members) r, Request.check (.object members) = .valid r →
      Request.groupsOf members = .object entries →
      options.typeNames = [] → r.typeNames = [] → config.typeNames = [] →
        r.groups.map Prod.fst = (entries.map fun entry => entry.1.points).eraseDups ∧
        (∀ group ∈ r.groups, ∃ (name : String) (j : Json), group.1 = name ∧
          entries.last? name = some j ∧ Property.checkList j = .valid group.2) ∧
        let job := Job.ofRequest options r config
        ∀ resolve,
          let setting : Setting := ⟨job.importName, resolve⟩
          job.convertBy resolve =
              .concat (r.groups.map fun group => convertProperties setting group.2) ∧
            job.omissionsBy resolve =
              .concat (r.groups.map fun group => omissionsOf setting group.1 group.2) ∧
            ∀ o ∈ (job.omissionsBy resolve).value, o.reason ≠ .undeclared) := by
  refine ⟨?_, fun setting groups first second => ?_, ?_⟩
  · intro members entries r selected hr hentries hselected hne members' entries' hentries' hnames
      himport hchanges
    obtain ⟨r', hr', hnames', himport', hgroups⟩ :=
      Request.check_of_changes hr hentries hentries' hnames himport hchanges
    have hselected' := hselected
    rw [← hnames'] at hselected'
    have hjob := ofRequest_selected hselected hne
    have hjob' := ofRequest_selected hselected' hne
    refine ⟨r', hr', hjob, fun resolve => ?_⟩
    have himportName : (Job.ofRequest options r' config).importName =
        (Job.ofRequest options r config).importName := by
      simp only [Job.ofRequest, himport']
    simp only [Job.convertBy, Job.omissionsBy, hjob, hjob', himportName]
    exact ⟨convertSelection_congr hgroups, findOmissions_congr hgroups⟩
  · exact ⟨convertSelection_append setting groups first second,
      findOmissions_append setting groups first second⟩
  · intro members entries r hr hentries hoptions hrequest hconfig
    obtain ⟨hgroups, -⟩ := Request.check_object_eq_valid.mp hr
    rw [hentries] at hgroups
    have hnamed := Groups.areNamed_of_check hgroups
    have hnodup := hnamed.nodup
    have hall := ofRequest_unselected hoptions hrequest hconfig
    refine ⟨Groups.names_of_check hgroups, fun group hgroup => ?_, fun resolve => ?_⟩
    · obtain ⟨name, hname⟩ := hnamed.strings group hgroup
      have hlookup := Groups.lookup_of_check hgroups (JoinedText.ofString name)
      rw [JoinedText.points_ofString, ← hname, lookup_of_mem hnodup hgroup, Option.map_some]
        at hlookup
      obtain ⟨j, hj, hproperties⟩ := Option.map_eq_some_iff.mp hlookup.symm
      exact ⟨name, j, hname, hj, hproperties⟩
    · have homissions := findOmissions_all
        ⟨(Job.ofRequest options r config).importName, resolve⟩ hnodup
      simp only [Job.convertBy, Job.omissionsBy, hall]
      refine ⟨convertSelection_all _ hnodup, homissions, fun o ho => ?_⟩
      rw [show (Job.ofRequest options r config).groups = r.groups from rfl, homissions] at ho
      obtain ⟨x, hx, ho⟩ := List.mem_flatMap.mp ho
      obtain ⟨group, -, rfl⟩ := List.mem_map.mp hx
      exact reason_ne_undeclared ho

/-- A request document with these groups and without settings. -/
def requestMembers (groups : Groups) : Members := [Json.member "types" groups.toJson]

theorem check_requestMembers {groups : Groups} (h : groups.AreNamed) :
    Request.check (.object (requestMembers groups)) = .valid ⟨groups, [], none⟩ := by
  refine Request.check_object_eq_valid.mpr ⟨?_, rfl, rfl⟩
  simpa [Request.groupsOf, requestMembers] using Groups.check_toJson h

/-- The group that the configuration selects is put behind the other one, and one more is added: the
changed request converts as before. Without the configuration its groups are converted in their new
order. -/
theorem moved_group_is_selected :
    let groups : Groups := [(("Props" : Text), [icon]), (("Other" : Text), [])]
    let groups' : Groups :=
      [(("Other" : Text), []), (("Extra" : Text), [icon]), (("Props" : Text), [icon])]
    let config : Config := { typeNames := ["Props"] }
    (Job.ofRequest {} ⟨groups', [], none⟩ config).convertBy EntityName.flatten =
        (Job.ofRequest {} ⟨groups, [], none⟩ config).convertBy EntityName.flatten ∧
      (Job.ofRequest {} ⟨groups', [], none⟩ {}).convertBy EntityName.flatten =
        .concat (groups'.map fun group =>
          convertProperties ⟨"React", EntityName.flatten⟩ group.2) := by
  intro groups groups' config
  have hcheck : Request.check (.object (requestMembers groups)) = .valid ⟨groups, [], none⟩ :=
    check_requestMembers ⟨by decide, by simp [groups]⟩
  have hcheck' : Request.check (.object (requestMembers groups')) = .valid ⟨groups', [], none⟩ :=
    check_requestMembers ⟨by decide, by simp [groups']⟩
  let other := Json.member "Other" (.array [])
  let extra := Json.member "Extra" (.array [icon.toJson])
  let props := Json.member "Props" (.array [icon.toJson])
  have hmoved : GroupChange ["Props"] [props, other] [other, props] :=
    .of_perm (.swap _ _ _) (by decide)
  have hadded : GroupChange ["Props"] [other, props] [other, extra, props] :=
    @GroupChange.add ["Props"] [other] [props] "Extra" _ _ (by decide)
      (Property.checkList_toJson [icon])
  have hgroups : Request.groupsOf (requestMembers groups) = .object [props, other] := rfl
  have hgroups' : Request.groupsOf (requestMembers groups') = .object [other, extra, props] := rfl
  have hnames (all : Groups) : (requestMembers all).last? "type_names" = none := rfl
  have himport (all : Groups) : (requestMembers all).last? "namespace_alias" = none := rfl
  have hselected : FirstNonempty [] [[], [], config.typeNames] [Text.ofString "Props"] :=
    .later (.later (.first [] (by decide)))
  constructor
  · obtain ⟨r', hr', -, hsame⟩ := (only_selected_groups_matter {} config).1 _ _ _ _ hcheck hgroups
      hselected (by decide) _ _ hgroups' ((hnames groups').trans (hnames groups).symm)
      ((himport groups').trans (himport groups).symm)
      ((Relation.ReflTransGen.single hmoved).tail hadded)
    obtain rfl := Checked.valid.inj (hcheck'.symm.trans hr')
    exact (hsame EntityName.flatten).1
  · obtain ⟨-, -, hall⟩ := (only_selected_groups_matter {} {}).2.2 _ _ _ hcheck' hgroups'
      rfl rfl rfl
    exact (hall EntityName.flatten).1

end Command

end PropValidators
