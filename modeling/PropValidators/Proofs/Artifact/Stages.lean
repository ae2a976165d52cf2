import Mathlib
import PropValidators.Platform
import PropValidators.Proofs.Artifact.RoundTrip
import PropValidators.Proofs.Json.Limits
import PropValidators.Proofs.Json.Standard
/-!
Which texts hold converted props, and what is wrong with the others: they are no documents, or no
objects, or of another version, or do not list assignments. The first of these counts. Limits break
the reading of some texts off, and make no other difference.
-/
namespace PropValidators.Artifact

variable {limits : Limits} {text : String} {members : Members} {props : List Assignment}

/-- A text spells an object with the members, whatever blanks and escapes it is written with. -/
def IsObject (text : String) (members : Members) : Prop :=
  Json.Spells (.text (.object members)) text.toList

/-- An object of these members keeps the limits of the reader. -/
def Fits (limits : Limits) (members : Members) : Prop :=
  (Json.object members).overrun? limits 0 = none

/-- The last `v` of an object is the version of the format. -/
def IsCurrent (members : Members) : Prop := members.last? "v" = some (.ofString formatVersion)

/-- The props of an object: one for each item of the last `props`, which is a list of assignments,
and none where there is no such member. -/
inductive Lists (members : Members) : List Assignment → Prop
  | absent : members.last? "props" = none → Lists members []
  | listed {items : List Json} {props : List Assignment} :
    members.last? "props" = some (.array items) →
    List.Forall₂ (fun item a => Assignment.check item = .valid a) items props → Lists members props

/-- Whether validators are within the limit of them. -/
def AreShallow (limits : Limits) (props : List Assignment) : Prop :=
  limits.allowValidators (Validator.heightOfAssignments props) = true

/-- The first stage at which a text fails, with the error of this stage. -/
inductive FailsAt (limits : Limits) (text : String) : Error → Prop
  | brokenOff {o : Overrun} : Json.read limits text = .error (.overrun o) →
    FailsAt limits text (.overrun o)
  | noDocument {reason : Json.SyntaxError} : (∀ j, ¬Json.Spells (.text j) text.toList) →
    Json.read limits text = .error (.malformed reason) → FailsAt limits text (.malformed reason)
  | noObject {j : Json} : Json.Spells (.text j) text.toList → j.overrun? limits 0 = none →
    (∀ members, j ≠ .object members) → FailsAt limits text .notObject
  | otherVersion {members : Members} : IsObject text members → Fits limits members →
    ¬IsCurrent members →
    FailsAt limits text (.unsupportedVersion ((members.last? "v").getD .null))
  | otherContent {members : Members} : IsObject text members → Fits limits members →
    IsCurrent members → (∀ props, ¬Lists members props) → FailsAt limits text
      (.invalid (Assignment.checkList ((members.last? "props").getD (.array []))).faults)
  | tooNested {members : Members} {props : List Assignment} : IsObject text members →
    Fits limits members → IsCurrent members → Lists members props → ¬AreShallow limits props →
    FailsAt limits text .tooNested

theorem checkList_eq_valid : Assignment.checkList ((members.last? "props").getD (.array [])) =
    .valid props ↔ Lists members props := by
  rw [Assignment.checkList, Json.checkList_eq_valid]
  constructor
  · rintro ⟨items, hitems, hprops⟩
    cases hlast : members.last? "props" with
    | none =>
      rw [hlast] at hitems
      cases hitems
      cases hprops
      exact .absent hlast
    | some j =>
      rw [hlast] at hitems
      cases hitems
      exact .listed hlast hprops
  · rintro (hnone | ⟨hlast, hprops⟩)
    · exact ⟨[], by rw [hnone]; rfl, .nil⟩
    · exact ⟨_, by rw [hlast]; rfl, hprops⟩

theorem ofMembers_of_shallow (h : Lists members props) (hshallow : AreShallow limits props) :
    ofMembers limits members = .ok props := by
  rw [ofMembers, checkList_eq_valid.mpr h]
  exact if_pos hshallow

theorem ofMembers_of_not_shallow (h : Lists members props) (hdeep : ¬AreShallow limits props) :
    ofMembers limits members = .error .tooNested := by
  rw [ofMembers, checkList_eq_valid.mpr h]
  exact if_neg hdeep

theorem ofMembers_of_not_lists (h : ∀ props, ¬Lists members props) : ofMembers limits members =
    .error (.invalid (Assignment.checkList ((members.last? "props").getD (.array []))).faults) := by
  rw [ofMembers]
  cases hcheck : Assignment.checkList ((members.last? "props").getD (.array [])) with
  | valid props => exact absurd (checkList_eq_valid.mp hcheck) (h props)
  | faulty first others => rfl

/-! ### Stages -/

theorem read_object (htext : IsObject text members) (hfits : Fits limits members) :
    Json.read limits text = .ok (.object members) := Json.read_eq_ok.mpr ⟨htext, hfits⟩

theorem deserialize_of_current (htext : IsObject text members) (hfits : Fits limits members)
    (hv : IsCurrent members) : deserialize limits text = ofMembers limits members := by
  rw [deserialize, read_object htext hfits]
  dsimp only
  rw [hv]
  exact if_pos rfl

theorem deserialize_of_not_current (htext : IsObject text members) (hfits : Fits limits members)
    (hv : ¬IsCurrent members) :
    deserialize limits text = .error (.unsupportedVersion ((members.last? "v").getD .null)) := by
  rw [deserialize, read_object htext hfits]
  dsimp only
  split
  · next t hlast =>
    rw [hlast]
    refine if_neg fun ht => hv ?_
    rw [IsCurrent, hlast, ht]
    rfl
  · next found _ hlast => rw [hlast, Option.getD_some]
  · next hlast => rw [hlast, Option.getD_none]

theorem deserialize_of_not_object {j : Json} (htext : Json.Spells (.text j) text.toList)
    (hkept : j.overrun? limits 0 = none) (hj : ∀ members, j ≠ .object members) :
    deserialize limits text = .error .notObject := by
  rw [deserialize, Json.read_eq_ok.mpr ⟨htext, hkept⟩]
  cases j with
  | object members => exact absurd rfl (hj members)
  | _ => rfl

theorem deserialize_of_malformed {reason : Json.SyntaxError}
    (h : Json.read limits text = .error (.malformed reason)) :
    deserialize limits text = .error (.malformed reason) := by
  rw [deserialize, h]

theorem deserialize_of_overrun {o : Overrun} (h : Json.read limits text = .error (.overrun o)) :
    deserialize limits text = .error (.overrun o) := by
  rw [deserialize, h]

theorem not_spells_of_malformed {reason : Json.SyntaxError}
    (h : Json.read limits text = .error (.malformed reason)) (j : Json) :
    ¬Json.Spells (.text j) text.toList := by
  intro hj
  cases hoverrun : j.overrun? limits 0 with
  | none =>
    rw [Json.read_eq_ok.mpr ⟨hj, hoverrun⟩] at h
    cases h
  | some o =>
    rw [Json.read_of_overrun hj hoverrun] at h
    cases h

/-- A text fails at one of the stages, or it passes them all and its props are found. -/
theorem deserialize_cases (limits : Limits) (text : String) :
    (∃ e, FailsAt limits text e ∧ deserialize limits text = .error e) ∨
    ∃ members props, IsObject text members ∧ Fits limits members ∧ IsCurrent members ∧
      Lists members props ∧ AreShallow limits props ∧ deserialize limits text = .ok props := by
  cases hread : Json.read limits text with
  | error e =>
    cases e with
    | malformed reason =>
      exact .inl ⟨_, .noDocument (not_spells_of_malformed hread) hread,
        deserialize_of_malformed hread⟩
    | overrun o => exact .inl ⟨_, .brokenOff hread, deserialize_of_overrun hread⟩
  | ok j =>
    obtain ⟨htext, hkept⟩ := Json.read_eq_ok.mp hread
    by_cases hj : ∃ members, j = .object members
    case neg =>
      have hj : ∀ members, j ≠ .object members := fun members h => hj ⟨members, h⟩
      exact .inl ⟨_, .noObject htext hkept hj, deserialize_of_not_object htext hkept hj⟩
    obtain ⟨members, rfl⟩ := hj
    by_cases hv : IsCurrent members
    case neg =>
      exact .inl ⟨_, .otherVersion htext hkept hv, deserialize_of_not_current htext hkept hv⟩
    rw [deserialize_of_current htext hkept hv]
    by_cases hlists : ∃ props, Lists members props
    case neg =>
      have hnone : ∀ props, ¬Lists members props := fun props h => hlists ⟨props, h⟩
      exact .inl ⟨_, .otherContent htext hkept hv hnone, ofMembers_of_not_lists hnone⟩
    obtain ⟨props, hprops⟩ := hlists
    by_cases hshallow : AreShallow limits props
    · exact .inr ⟨members, props, htext, hkept, hv, hprops, hshallow,
        ofMembers_of_shallow hprops hshallow⟩
    · exact .inl ⟨_, .tooNested htext hkept hv hprops hshallow,
        ofMembers_of_not_shallow hprops hshallow⟩

theorem deserialize_eq_ok : deserialize limits text = .ok props ↔
    ∃ members, IsObject text members ∧ Fits limits members ∧ IsCurrent members ∧
      Lists members props ∧ AreShallow limits props := by
  constructor
  · intro h
    rcases deserialize_cases limits text with
      ⟨e, -, herror⟩ | ⟨members, found, htext, hfits, hv, hlists, hshallow, hok⟩
    · rw [h] at herror
      cases herror
    · rw [h] at hok
      cases hok
      exact ⟨members, htext, hfits, hv, hlists, hshallow⟩
  · rintro ⟨members, htext, hfits, hv, hlists, hshallow⟩
    rw [deserialize_of_current htext hfits hv, ofMembers_of_shallow hlists hshallow]

theorem deserialize_eq_error {e : Error} :
    deserialize limits text = .error e ↔ FailsAt limits text e := by
  constructor
  · intro h
    rcases deserialize_cases limits text with
      ⟨found, hfails, herror⟩ | ⟨members, found, -, -, -, -, -, hok⟩
    · rw [h] at herror
      cases herror
      exact hfails
    · rw [h] at hok
      cases hok
  · intro h
    cases h with
    | brokenOff hread => exact deserialize_of_overrun hread
    | noDocument _ hread => exact deserialize_of_malformed hread
    | noObject htext hkept hj => exact deserialize_of_not_object htext hkept hj
    | otherVersion htext hfits hv => exact deserialize_of_not_current htext hfits hv
    | otherContent htext hfits hv hnone =>
      rw [deserialize_of_current htext hfits hv, ofMembers_of_not_lists hnone]
    | tooNested htext hfits hv hlists hshallow =>
      rw [deserialize_of_current htext hfits hv, ofMembers_of_not_shallow hlists hshallow]

/-- Of an object only the last `v` and the last `props` count. -/
theorem deserialize_congr {text' : String} {members' : Members} (htext : IsObject text members)
    (htext' : IsObject text' members') (hfits : Fits limits members)
    (hfits' : Fits limits members') (hv : members'.last? "v" = members.last? "v")
    (hprops : members'.last? "props" = members.last? "props") :
    deserialize limits text' = deserialize limits text := by
  have hcurrent : IsCurrent members' ↔ IsCurrent members := by rw [IsCurrent, hv, IsCurrent]
  by_cases h : IsCurrent members
  · rw [deserialize_of_current htext hfits h,
      deserialize_of_current htext' hfits' (hcurrent.mpr h), ofMembers, hprops, ofMembers]
  · rw [deserialize_of_not_current htext hfits h,
      deserialize_of_not_current htext' hfits' (fun h' => h (hcurrent.mp h')), hv]

/-! ### Limits -/

/-- Of a document, the first limit that is not kept breaks the reading off, whatever the members
are that it is not kept in. -/
theorem deserialize_eq_overrun {j : Json} (htext : Json.Spells (.text j) text.toList)
    {o : Overrun} : deserialize limits text = .error (.overrun o) ↔
      j.overrun? limits 0 = some o := by
  constructor
  · intro h
    cases deserialize_eq_error.mp h with
    | brokenOff hread =>
      cases hj : j.overrun? limits 0 with
      | none =>
        rw [Json.read_eq_ok.mpr ⟨htext, hj⟩] at hread
        cases hread
      | some o' =>
        rw [Json.read_of_overrun htext hj] at hread
        cases hread
        rfl
  · intro h
    exact deserialize_of_overrun (Json.read_of_overrun htext h)

theorem deserialize_unlimited_ne (text : String) (o : Overrun) :
    deserialize .unlimited text ≠ .error (.overrun o) := by
  intro h
  cases deserialize_eq_error.mp h with
  | brokenOff hread => exact Json.read_unlimited_ne o hread

/-- Limits that do not break the reading off change nothing but that they keep props out whose
validators are too deep. -/
theorem deserialize_eq_unlimited_or (limits : Limits) (text : String) :
    deserialize limits text = deserialize .unlimited text ∨
      (∃ o, deserialize limits text = .error (.overrun o)) ∨
      ∃ props, deserialize .unlimited text = .ok props ∧ ¬AreShallow limits props ∧
        deserialize limits text = .error .tooNested := by
  rcases Json.read_eq_or limits text with hread | ⟨o, ho⟩
  case inr => exact .inr (.inl ⟨o, deserialize_of_overrun ho⟩)
  rcases deserialize_cases limits text with
    ⟨e, hfails, herror⟩ | ⟨members, props, htext, -, hv, hlists, -, hok⟩
  · cases hfails with
    | brokenOff _ => exact .inr (.inl ⟨_, herror⟩)
    | noDocument _ h => exact .inl (herror.trans (deserialize_of_malformed (hread ▸ h)).symm)
    | noObject htext _ hj =>
      exact .inl (herror.trans
        (deserialize_of_not_object htext (Json.overrun?_unlimited 0 _) hj).symm)
    | otherVersion htext _ hv =>
      exact .inl (herror.trans
        (deserialize_of_not_current htext (Json.overrun?_unlimited 0 _) hv).symm)
    | otherContent htext _ hv hnone =>
      have hfull := deserialize_eq_error.mpr
        (.otherContent htext (Json.overrun?_unlimited 0 _) hv hnone)
      exact .inl (herror.trans hfull.symm)
    | @tooNested members props htext _ hv hlists hshallow =>
      have hfull := deserialize_eq_ok.mpr
        ⟨members, htext, Json.overrun?_unlimited 0 _, hv, hlists, rfl⟩
      exact .inr (.inr ⟨props, hfull, hshallow, herror⟩)
  · have hfull := deserialize_eq_ok.mpr
      ⟨members, htext, Json.overrun?_unlimited 0 _, hv, hlists, rfl⟩
    exact .inl (hok.trans hfull.symm)

/-- A text holds converted props exactly if it spells an object with the version of the format and
a list of assignments, and then these. Otherwise it fails at the first stage that it does not pass.
Objects that agree in the last `v` and the last `props` are read alike, however they are written,
and no text of standard JSON is called malformed. Within limits all of this holds of the texts that
are read to their end: a document breaks its reading off exactly if one of its integers or its
nesting does not keep them, also where they do not count, and no other text is read otherwise than
without limits, but for props whose validators are too deep. -/
theorem texts_are_read_by_stages (limits : Limits) (text : String) :
    (∀ props, deserialize limits text = .ok props ↔
      ∃ members, IsObject text members ∧ Fits limits members ∧ IsCurrent members ∧
        Lists members props ∧ AreShallow limits props) ∧
    (∀ e, deserialize limits text = .error e ↔ FailsAt limits text e) ∧
    (∀ members text' members', IsObject text members → IsObject text' members' →
      Fits limits members → Fits limits members' →
      members'.last? "v" = members.last? "v" → members'.last? "props" = members.last? "props" →
      deserialize limits text' = deserialize limits text) ∧
    (Json.IsStandard text → ∀ reason, deserialize limits text ≠ .error (.malformed reason)) ∧
    (∀ j o, Json.Spells (.text j) text.toList →
      (deserialize limits text = .error (.overrun o) ↔ j.overrun? limits 0 = some o)) ∧
    (deserialize limits text = deserialize .unlimited text ∨
      (∃ o, deserialize limits text = .error (.overrun o)) ∨
      ∃ props, deserialize .unlimited text = .ok props ∧ ¬AreShallow limits props ∧
        deserialize limits text = .error .tooNested) ∧
    (∀ members, Fits .unlimited members) ∧ (∀ props, AreShallow .unlimited props) ∧
    (∀ o, deserialize .unlimited text ≠ .error (.overrun o)) := by
  refine ⟨fun props => deserialize_eq_ok, fun e => deserialize_eq_error,
    fun members text' members' htext htext' hfits hfits' hv hprops =>
      deserialize_congr htext htext' hfits hfits' hv hprops,
    fun hstandard reason h => ?_, fun j o htext => deserialize_eq_overrun htext,
    deserialize_eq_unlimited_or limits text, fun members => Json.overrun?_unlimited 0 _,
    fun props => rfl, deserialize_unlimited_ne text⟩
  obtain ⟨j, hread⟩ := hstandard.exists_read
  cases deserialize_eq_error.mp h with
  | noDocument hnone => exact hnone j (Json.read_eq_ok.mp hread).1

/-- An object whose version is an integer. -/
def numbered (n : Nat) : Members :=
  [Json.member "v" (.int n), Json.member "props" (.array [])]

/-- If the integer has more digits than the limit allows, the reading is broken off. -/
theorem deserialize_numbered {most n : Nat} (hlimit : limits.digits = some most) (hmost : 0 < most)
    (hnesting : limits.allowNesting 1 = true) (hn : 10 ^ most ≤ n) :
    deserialize limits (Json.object (numbered n)).compact = .error (.overrun .digits) := by
  have hlong : ¬(Digits.ofNat n).length ≤ most := by
    rw [Digits.length_ofNat_le_iff hmost, not_lt]
    exact hn
  have hdigits : limits.allowDigits (Digits.ofNat n).length = false := by
    rw [Limits.allowDigits, hlimit]
    exact decide_eq_false hlong
  refine (deserialize_eq_overrun (Json.spells_compact _)).mpr ?_
  simp [numbered, Json.overrun?, Json.overrunOfMembers?, Json.member, hnesting, hdigits]

theorem not_isCurrent_numbered (n : Nat) : ¬IsCurrent (numbered n) := nofun

/-- An object whose version has 4301 digits is one of another version, and without limits reported
as such. On the standard platform its reading is broken off. -/
theorem long_version_breaks_off :
    let members := numbered (10 ^ 4300)
    let text := (Json.object members).compact
    IsObject text members ∧ ¬IsCurrent members ∧
      deserialize .unlimited text =
        .error (.unsupportedVersion ((members.last? "v").getD .null)) ∧
      deserialize Platform.standard.limits text = .error (.overrun .digits) := by
  intro members text
  have hv : ¬IsCurrent members := not_isCurrent_numbered _
  have htext : IsObject text members := Json.spells_compact _
  exact ⟨htext, hv, deserialize_of_not_current htext (Json.overrun?_unlimited 0 _) hv,
    deserialize_numbered rfl (by decide) rfl (Nat.le_refl _)⟩

/-- Earlier members and others do not count, nor do blanks and the order of the members. -/
theorem later_members_count :
    let text := r#" {"v":null,"props":true,"v":"1" , "props":[]}"#
    let text' := r#"{"props":[],"x":false,"v":"1"}"#
    deserialize .unlimited text = .ok [] ∧
      deserialize .unlimited text' = deserialize .unlimited text := by
  intro text text'
  have hread : Json.read .unlimited text = .ok (.object [Json.member "v" .null,
      Json.member "props" (.bool true), Json.member "v" (.ofString "1"),
      Json.member "props" (.array [])]) := by cbv
  have hread' : Json.read .unlimited text' = .ok (.object [Json.member "props" (.array []),
      Json.member "x" (.bool false), Json.member "v" (.ofString "1")]) := by cbv
  have hstages := texts_are_read_by_stages .unlimited text
  have htext := (Json.read_eq_ok.mp hread).1
  refine ⟨(hstages.1 []).mpr ⟨_, htext, hstages.2.2.2.2.2.2.1 _, rfl, .listed rfl .nil, rfl⟩, ?_⟩
  exact hstages.2.2.1 _ text' _ htext (Json.read_eq_ok.mp hread').1 (hstages.2.2.2.2.2.2.1 _)
    (hstages.2.2.2.2.2.2.1 _) rfl rfl

end PropValidators.Artifact
