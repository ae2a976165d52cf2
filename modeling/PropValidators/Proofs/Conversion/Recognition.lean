import PropValidators.Proofs.Conversion.Domain
import PropValidators.Proofs.Conversion.Setting
import PropValidators.Proofs.Reference
/-!
Settings that recognise more references than others. Under them no type loses its validator and no
property its entry, and nothing is skipped or omitted that was not before.
-/
namespace PropValidators

/-- Whatever reference has a validator under the first setting has the same one under the second. -/
def Setting.ExtendedBy (s t : Setting) : Prop :=
  ∀ name v, s.validatorOf name = some v → t.validatorOf name = some v

/-- The keys of all entries in the result of a conversion, each before those beneath it. -/
def entryKeys (result : Option Validator) : List PropertyKey :=
  (result.elim [] Validator.entries).map Assignment.key

/-! ### Import names -/

theorem covers_of_covers_own {rule : ReferenceRule} (hrule : rule ∈ ReferenceRule.all)
    {name : Text} (h : rule.covers name "React" = true) (importName : Text) :
    rule.covers name importName = true := by
  have htype {type : Text} (h : isFrameworkType name type "React" = true) :
      isFrameworkType name type importName = true := by
    simp only [isFrameworkType, Bool.or_eq_true, decide_eq_true_eq] at h ⊢
    rcases h with h | rfl
    · exact .inl h
    · exact .inl (.inr rfl)
  have hany {types : List Text} (h : types.any (isFrameworkType name · "React") = true) :
      types.any (isFrameworkType name · importName) = true := by
    obtain ⟨type, hmem, hname⟩ := List.any_eq_true.mp h
    exact List.any_eq_true.mpr ⟨type, hmem, htype hname⟩
  simp only [ReferenceRule.all, List.mem_cons, List.not_mem_nil, or_false] at hrule
  rcases hrule with rfl | rfl | rfl | rfl | rfl
  · exact hany h
  · rcases Bool.or_eq_true_iff.mp h with helement | helements
    · exact Bool.or_eq_true_iff.mpr (.inl helement)
    · exact Bool.or_eq_true_iff.mpr (.inr (hany helements))
  · exact htype h
  · exact h
  · exact h

/-- What is recognised under the framework's own name has the same validator under any import
name: a rule that covers it still does, and no other one can, by its last part. -/
theorem validatorOfReference_of_own {name : Text} {v : Validator}
    (h : validatorOfReference name "React" = some v) (importName : Text) :
    validatorOfReference name importName = some v := by
  obtain ⟨rule, hrule, hcovers⟩ := exists_validatorOfReference.mp ⟨v, h⟩
  have hsome : ∃ w, validatorOfReference name importName = some w :=
    exists_validatorOfReference.mpr ⟨rule, hrule, covers_of_covers_own hrule hcovers importName⟩
  obtain ⟨w, hw⟩ := hsome
  have hvw : some v = some w := (validator_of_lastPart h).symm.trans (validator_of_lastPart hw)
  rw [hw, hvw]

theorem Setting.extendedBy_importName (importName : Text) (resolve : EntityName → Text) :
    Setting.ExtendedBy ⟨"React", resolve⟩ ⟨importName, resolve⟩ :=
  fun _ _ h => validatorOfReference_of_own h importName

/-! ### What is kept -/

namespace Setting.ExtendedBy

variable {s t : Setting} {type : TypeExpr} {p : Property}

theorem alwaysConverts (h : s.ExtendedBy t) (halways : type.AlwaysConverts s) :
    type.AlwaysConverts t := by
  cases halways with
  | string => exact .string
  | number => exact .number
  | boolean => exact .boolean
  | symbol => exact .symbol
  | function => exact .function
  | reference arguments hrule hcovers =>
    obtain ⟨v, hv⟩ := exists_validatorOfReference.mpr ⟨_, hrule, hcovers⟩
    obtain ⟨rule, hrule', hcovers'⟩ := exists_validatorOfReference.mp ⟨v, h _ v hv⟩
    exact .reference arguments hrule' hcovers'
  | array element => exact .array element
  | object hne => exact .object hne
  | literals hchoices hne => exact .literals hchoices hne

theorem hasValidator (h : s.ExtendedBy t) (htype : type.HasValidator s) : type.HasValidator t := by
  rw [TypeExpr.hasValidator_iff_chain] at htype ⊢
  obtain ⟨last, hchain, halways⟩ := htype
  exact ⟨last, hchain, h.alwaysConverts halways⟩

theorem converts (h : s.ExtendedBy t) (hp : p.Converts s) : p.Converts t := by
  obtain ⟨type, v, htype, hv⟩ := hp
  obtain ⟨w, hw⟩ := h.hasValidator ⟨v, hv⟩
  exact ⟨type, w, htype, hw⟩

/-- Both settings visit the same signatures, and one converts whatever signature the other does. -/
theorem sublist_of_tally (h : s.ExtendedBy t) {visited : List Property}
    {entries entries' : List Assignment} {skips skips' : List Skip}
    (hs : Tally s visited entries skips) (ht : Tally t visited entries' skips') :
    (entries.map Assignment.key).Sublist (entries'.map Assignment.key) ∧
      skips'.Sublist skips := by
  rw [hs.keys_eq, ht.keys_eq, hs.skips_eq, ht.skips_eq]
  constructor
  · refine (List.monotone_filter_right visited fun p hp => ?_).map Property.key
    rw [decide_eq_true_eq] at hp ⊢
    exact h.converts hp
  · refine (List.monotone_filter_right visited fun p hp => ?_).map Property.dropped
    rw [decide_eq_true_eq] at hp ⊢
    exact fun hconverts => hp (h.converts hconverts)

/-! ### Omissions -/

theorem fate_inr (h : s.ExtendedBy t) {stop : Stop} {o : Omission}
    (hfate : stop.fate t = .inr o) : stop.fate s = .inr o := by
  cases stop with
  | undeclared group => exact hfate
  | property group p =>
    obtain ⟨key, type, optional⟩ := p
    cases type with
    | none => exact hfate
    | some type =>
      cases hs : (convert s type).value with
      | none =>
        cases ht : (convert t type).value with
        | none => simpa [Stop.fate, hs, ht] using hfate
        | some w => simp [Stop.fate, ht] at hfate
      | some v =>
        -- What converts under the first setting is not omitted under the second.
        obtain ⟨w, hw⟩ := h.hasValidator ⟨v, hs⟩
        simp [Stop.fate, hw] at hfate

theorem omissions_sublist (h : s.ExtendedBy t) (stops : List Stop) :
    ((stops.map (Stop.fate t)).filterMap Sum.getRight?).Sublist
      ((stops.map (Stop.fate s)).filterMap Sum.getRight?) := by
  induction stops with
  | nil => exact .slnil
  | cons stop stops ih =>
    rw [List.map_cons, List.map_cons]
    cases ht : stop.fate t with
    | inl a =>
      rw [List.filterMap_cons_none rfl]
      exact ih.trans ((List.sublist_cons_self _ _).filterMap _)
    | inr o =>
      have hsome : Sum.getRight? (.inr o : Assignment ⊕ Omission) = some o := rfl
      rw [h.fate_inr ht, List.filterMap_cons_some hsome, List.filterMap_cons_some hsome]
      exact ih.cons_cons o

end Setting.ExtendedBy

/-- Recognising more references only adds to the output. It is so for any import name beside the
framework's own one. What converts still does, the keys of its entries at all depths are kept in
their order, and what is skipped, or omitted from a selection, was so before. -/
theorem recognition_only_adds :
    (∀ importName resolve, Setting.ExtendedBy ⟨"React", resolve⟩ ⟨importName, resolve⟩) ∧
    ∀ s t : Setting, s.ExtendedBy t →
      (∀ type,
        ((∃ v, (convert s type).value = some v) → ∃ w, (convert t type).value = some w) ∧
        (entryKeys (convert s type).value).Sublist (entryKeys (convert t type).value) ∧
        (convert t type).skips.Sublist (convert s type).skips) ∧
      ∀ groups names,
        (findOmissions t groups names).value.Sublist (findOmissions s groups names).value := by
  refine ⟨Setting.extendedBy_importName, fun s t h => ⟨fun type => ?_, fun groups names => ?_⟩⟩
  · have hs : TypeAccount s false type := typeAccount false type
    have ht : TypeAccount t false type := typeAccount false type
    exact ⟨h.hasValidator, h.sublist_of_tally hs.accounts.tally ht.accounts.tally⟩
  · rw [findOmissions_value, findOmissions_value]
    exact h.omissions_sublist _

/-- An index signature of shapes: under the name that the framework is imported as, the first
property is no longer dropped, and a selected property is no longer omitted. -/
theorem imported_node_is_added :
    let own : Setting := ⟨"React", EntityName.flatten⟩
    let imported : Setting := ⟨"R", EntityName.flatten⟩
    let icon : TypeExpr := .reference (.qualified (.identifier "R") "ReactNode") []
    let members : List Member :=
      [.property (.mk (.identifier "icon") (some icon) none),
       .property (.mk (.identifier "label") (some .string) none)]
    let type : TypeExpr := .object [.index (some (.object members))]
    let groups : Groups := [("Props", [.mk (.identifier "icon") (some icon) none])]
    own.ExtendedBy imported ∧
      (convert own type).skips = [.unsupported "icon" "reference"] ∧
      (entryKeys (convert own type).value).Sublist (entryKeys (convert imported type).value) ∧
      (findOmissions own groups ["Props"]).value =
        [⟨"Props", some "icon", .unsupported "reference"⟩] ∧
      (findOmissions imported groups ["Props"]).value.Sublist
        (findOmissions own groups ["Props"]).value := by
  intro own imported icon members type groups
  obtain ⟨hextended, hadds⟩ := recognition_only_adds
  have h := hextended "R" EntityName.flatten
  exact ⟨h, by decide, ((hadds own imported h).1 type).2.1, by decide,
    (hadds own imported h).2 groups ["Props"]⟩

end PropValidators
