import Mathlib
import PropValidators.Config
/-!
What makes a configuration: three entries of a mapping, each of them absent or of its type. Nothing
else in the mapping counts, and of several entries under one key the last one does.
-/
namespace PropValidators.Config

open Yaml (Value)

variable {entries entries' : List (Value × Value)} {name : String} {value : Value}

/-- No entry is under a string. -/
def Lacks (entries : List (Value × Value)) (name : String) : Prop :=
  ∀ entry ∈ entries, entry.1 ≠ .string name

/-- The last entry under a string has a value. -/
def Holds (entries : List (Value × Value)) (name : String) (value : Value) : Prop :=
  ∃ before after, entries = before ++ (.string name, value) :: after ∧ Lacks after name

/-! ### Fields -/

theorem field?_singleton_eq_some {entry : Value × Value} :
    field? name [entry] = some value ↔ entry = (.string name, value) := by
  obtain ⟨key, v⟩ := entry
  cases key <;> simp [field?]

theorem field?_cons (name : String) (entry : Value × Value) (entries : List (Value × Value)) :
    field? name (entry :: entries) = (field? name entries).or (field? name [entry]) := by
  obtain ⟨key, v⟩ := entry
  cases hlater : field? name entries <;> cases key <;> simp [field?, hlater]

/-- What is found is in the later entries, if it is there. -/
theorem field?_append (name : String) (xs ys : List (Value × Value)) :
    field? name (xs ++ ys) = (field? name ys).or (field? name xs) := by
  induction xs with
  | nil => simp [field?]
  | cons entry xs ih =>
    rw [List.cons_append, field?_cons, ih, Option.or_assoc, field?_cons name entry xs]

theorem field?_eq_none : field? name entries = none ↔ Lacks entries name := by
  induction entries with
  | nil => simp [field?, Lacks]
  | cons entry entries ih =>
    have hfirst : field? name [entry] = none ↔ entry.1 ≠ .string name := by
      rw [Option.eq_none_iff_forall_ne_some]
      simp only [ne_eq, field?_singleton_eq_some, Prod.ext_iff, not_and]
      exact ⟨fun h hkey => h entry.2 hkey rfl, fun h _ hkey => absurd hkey h⟩
    rw [field?_cons, Option.or_eq_none_iff, ih, hfirst, Lacks, Lacks, List.forall_mem_cons,
      and_comm]

theorem field?_eq_some : field? name entries = some value ↔ Holds entries name value := by
  constructor
  · intro h
    induction entries with
    | nil => cases h
    | cons entry entries ih =>
      rw [field?_cons, Option.or_eq_some_iff] at h
      rcases h with hlater | ⟨hnone, hfirst⟩
      · obtain ⟨before, after, rfl, hlacks⟩ := ih hlater
        exact ⟨entry :: before, after, rfl, hlacks⟩
      · rw [field?_singleton_eq_some] at hfirst
        exact ⟨[], entries, by rw [hfirst, List.nil_append], field?_eq_none.mp hnone⟩
  · rintro ⟨before, after, rfl, hlacks⟩
    have hlast : field? name ((.string name, value) :: after) = some value := by
      rw [field?_cons, field?_eq_none.mpr hlacks, Option.none_or, field?_singleton_eq_some]
    rw [field?_append, hlast, Option.some_or]

theorem Holds.not_lacks (h : Holds entries name value) : ¬Lacks entries name := by
  rw [← field?_eq_none, field?_eq_some.mpr h]
  exact Option.some_ne_none value

/-! ### Settings -/

section Setting

variable {α : Type}

/-- What entries give for a setting: its default if they lack it, else what its value stands
for. -/
inductive Gives (entries : List (Value × Value)) (name : String) (default : α)
    (StandsFor : Value → α → Prop) : α → Prop
  | absent : Lacks entries name → Gives entries name default StandsFor default
  | present {value : Value} {a : α} : Holds entries name value → StandsFor value a →
    Gives entries name default StandsFor a

/-- A reader of a setting, which has a default and one error for all values that stand for
nothing. -/
structure IsReader (read : Option Value → Except Error α) (default : α)
    (StandsFor : Value → α → Prop) (error : Error) : Prop where
  absent : read none = .ok default
  present (value : Value) (a : α) : read (some value) = .ok a ↔ StandsFor value a
  refused (value : Value) (e : Error) : read (some value) = .error e → e = error

variable {read : Option Value → Except Error α} {default : α} {StandsFor : Value → α → Prop}
  {error : Error}

theorem IsReader.eq_ok (hread : IsReader read default StandsFor error) {a : α} :
    read (field? name entries) = .ok a ↔ Gives entries name default StandsFor a := by
  constructor
  · intro h
    cases hfield : field? name entries with
    | none =>
      rw [hfield, hread.absent] at h
      cases h
      exact .absent (field?_eq_none.mp hfield)
    | some value =>
      rw [hfield, hread.present] at h
      exact .present (field?_eq_some.mp hfield) h
  · rintro (hlacks | ⟨hholds, hvalue⟩)
    · rw [field?_eq_none.mpr hlacks, hread.absent]
    · rw [field?_eq_some.mpr hholds]
      exact (hread.present _ _).mpr hvalue

theorem IsReader.eq_error (hread : IsReader read default StandsFor error) {e : Error} :
    read (field? name entries) = .error e ↔
      e = error ∧ ∀ a, ¬Gives entries name default StandsFor a := by
  constructor
  · intro h
    refine ⟨?_, fun a hgives => ?_⟩
    · cases hfield : field? name entries with
      | none =>
        rw [hfield, hread.absent] at h
        cases h
      | some value => exact hread.refused value e (hfield ▸ h)
    · rw [hread.eq_ok.mpr hgives] at h
      cases h
  · rintro ⟨rfl, hnone⟩
    cases hresult : read (field? name entries) with
    | ok a => exact absurd (hread.eq_ok.mp hresult) (hnone a)
    | error e =>
      cases hfield : field? name entries with
      | none =>
        rw [hfield, hread.absent] at hresult
        cases hresult
      | some value => rw [hread.refused value e (hfield ▸ hresult)]

/-- An entry that is there is not taken for an absent one. -/
theorem Gives.standsFor {a : α} (h : Gives entries name default StandsFor a)
    (hholds : Holds entries name value) : StandsFor value a := by
  cases h with
  | absent hlacks => exact absurd hlacks hholds.not_lacks
  | present hvalue hstands =>
    have hsame := (field?_eq_some.mpr hholds).symm.trans (field?_eq_some.mpr hvalue)
    rw [Option.some.inj hsame]
    exact hstands

end Setting

/-- A string that is not empty stands for the name that the framework is imported as. -/
def IsImportName (value : Value) (importName : Option Text) : Prop :=
  ∃ s, s ≠ [] ∧ value = .string s ∧ importName = some s

def AreTypeNames (value : Value) (names : List Text) : Prop :=
  value = .list (names.map .string)

def IsStrictness (value : Value) (strict : Bool) : Prop := value = .bool strict

theorem isReader_importNameOf : IsReader importNameOf none IsImportName .importName where
  absent := rfl
  present value a := by
    cases value with
    | string s =>
      have hresult : importNameOf (some (.string s)) = .ok a ↔ s ≠ [] ∧ some s = a := by
        by_cases hs : s = [] <;> simp [importNameOf, hs]
      rw [hresult]
      constructor
      · rintro ⟨hs, rfl⟩
        exact ⟨s, hs, rfl, rfl⟩
      · rintro ⟨t, ht, hst, rfl⟩
        cases hst
        exact ⟨ht, rfl⟩
    | _ => simp [importNameOf, IsImportName]
  refused value e h := by
    cases value with
    | string s =>
      rw [importNameOf] at h
      split at h <;> cases h
      rfl
    | _ => exact (Except.error.inj h).symm

theorem mapM_string?_eq_some {items : List Value} {names : List Text} :
    items.mapM string? = some names ↔ items = names.map .string := by
  induction items generalizing names with
  | nil => cases names <;> simp
  | cons item items ih =>
    cases item with
    | string s =>
      rw [List.mapM_cons, string?]
      cases names with
      | nil => simp [Option.bind_eq_some_iff]
      | cons first names =>
        rw [List.map_cons, List.cons.injEq, Value.string.injEq, ← ih]
        cases items.mapM string? <;> simp
    | _ => cases names <;> simp [string?]

theorem isReader_typeNamesOf : IsReader typeNamesOf [] AreTypeNames .typeNames where
  absent := rfl
  present value names := by
    cases value with
    | list items =>
      rw [typeNamesOf, AreTypeNames, Value.list.injEq, ← mapM_string?_eq_some]
      cases items.mapM string? <;> simp
    | _ => simp [typeNamesOf, AreTypeNames]
  refused value e h := by
    cases value with
    | list items =>
      rw [typeNamesOf] at h
      split at h <;> cases h
      rfl
    | _ => exact (Except.error.inj h).symm

theorem isReader_strictOf : IsReader strictOf false IsStrictness .strict where
  absent := rfl
  present value b := by
    cases value <;> simp [strictOf, IsStrictness]
  refused value e h := by
    cases value with
    | bool b => cases h
    | _ => exact (Except.error.inj h).symm

/-! ### Configurations -/

/-- The configuration that the entries of a mapping describe. -/
structure Describes (entries : List (Value × Value)) (config : Config) : Prop where
  importName : Gives entries "namespace-alias" none IsImportName config.importName
  typeNames : Gives entries "type-names" [] AreTypeNames config.typeNames
  strict : Gives entries "strict" false IsStrictness config.strict

/-- The first condition that keeps a value from being a configuration. -/
inductive FailsAt : Value → Error → Prop
  | notMapping {value : Value} : value ≠ .null → (∀ entries, value ≠ .mapping entries) →
    FailsAt value .notMapping
  | importName {entries : List (Value × Value)} :
    (∀ importName, ¬Gives entries "namespace-alias" none IsImportName importName) →
    FailsAt (.mapping entries) .importName
  | typeNames {entries : List (Value × Value)} {importName : Option Text} :
    Gives entries "namespace-alias" none IsImportName importName →
    (∀ names, ¬Gives entries "type-names" [] AreTypeNames names) →
    FailsAt (.mapping entries) .typeNames
  | strict {entries : List (Value × Value)} {importName : Option Text} {names : List Text} :
    Gives entries "namespace-alias" none IsImportName importName →
    Gives entries "type-names" [] AreTypeNames names →
    (∀ strict, ¬Gives entries "strict" false IsStrictness strict) →
    FailsAt (.mapping entries) .strict

theorem ofValue_mapping_eq_ok {config : Config} :
    ofValue (.mapping entries) = .ok config ↔ Describes entries config := by
  constructor
  · intro h
    simp only [ofValue, bind, Except.bind] at h
    split at h
    · cases h
    next a ha =>
    split at h
    · cases h
    next names hn =>
    split at h
    · cases h
    next strict hs =>
    cases h
    exact ⟨isReader_importNameOf.eq_ok.mp ha, isReader_typeNamesOf.eq_ok.mp hn,
      isReader_strictOf.eq_ok.mp hs⟩
  · rintro ⟨ha, hn, hs⟩
    simp only [ofValue, isReader_importNameOf.eq_ok.mpr ha, isReader_typeNamesOf.eq_ok.mpr hn,
      isReader_strictOf.eq_ok.mpr hs, bind, Except.bind]
    rfl

theorem ofValue_mapping_eq_error {e : Error} :
    ofValue (.mapping entries) = .error e ↔ FailsAt (.mapping entries) e := by
  constructor
  · intro h
    simp only [ofValue, bind, Except.bind] at h
    split at h
    · next ha =>
      cases h
      obtain ⟨rfl, hnone⟩ := isReader_importNameOf.eq_error.mp ha
      exact .importName hnone
    next a ha =>
    split at h
    · next hn =>
      cases h
      obtain ⟨rfl, hnone⟩ := isReader_typeNamesOf.eq_error.mp hn
      exact .typeNames (isReader_importNameOf.eq_ok.mp ha) hnone
    next names hn =>
    split at h
    · next hs =>
      cases h
      obtain ⟨rfl, hnone⟩ := isReader_strictOf.eq_error.mp hs
      exact .strict (isReader_importNameOf.eq_ok.mp ha) (isReader_typeNamesOf.eq_ok.mp hn) hnone
    · cases h
  · intro h
    cases h with
    | notMapping _ hmapping => exact absurd rfl (hmapping entries)
    | importName hnone =>
      have ha := isReader_importNameOf.eq_error.mpr ⟨rfl, hnone⟩
      simp only [ofValue, ha, bind, Except.bind]
    | typeNames ha hnone =>
      have hn := isReader_typeNamesOf.eq_error.mpr ⟨rfl, hnone⟩
      simp only [ofValue, isReader_importNameOf.eq_ok.mpr ha, hn, bind, Except.bind]
    | strict ha hn hnone =>
      have hs := isReader_strictOf.eq_error.mpr ⟨rfl, hnone⟩
      simp only [ofValue, isReader_importNameOf.eq_ok.mpr ha, isReader_typeNamesOf.eq_ok.mpr hn, hs,
        bind, Except.bind]

theorem ofValue_eq_ok {config : Config} :
    ofValue value = .ok config ↔ value = .null ∧ config = {} ∨
      ∃ entries, value = .mapping entries ∧ Describes entries config := by
  cases value with
  | mapping entries => simp [ofValue_mapping_eq_ok]
  | _ => simp [ofValue, eq_comm]

theorem ofValue_eq_error {e : Error} : ofValue value = .error e ↔ FailsAt value e := by
  constructor
  · intro h
    cases value with
    | mapping entries => exact ofValue_mapping_eq_error.mp h
    | null => cases h
    | _ =>
      cases h
      exact .notMapping (by simp) (by simp)
  · intro h
    cases value with
    | mapping entries => exact ofValue_mapping_eq_error.mpr h
    | null =>
      cases h with
      | notMapping hnull _ => exact absurd rfl hnull
    | _ =>
      cases h
      rfl

/-! ### What does not count -/

def settingNames : List String := ["namespace-alias", "type-names", "strict"]

/-- Entries that differ by one that is no setting, or in the order of two under different keys. -/
inductive Differ : List (Value × Value) → List (Value × Value) → Prop
  | other (before after : List (Value × Value)) (key value : Value) :
    (∀ name ∈ settingNames, key ≠ .string name) →
    Differ (before ++ (key, value) :: after) (before ++ after)
  | swapped (before after : List (Value × Value)) (x y : Value × Value) : x.1 ≠ y.1 →
    Differ (before ++ x :: y :: after) (before ++ y :: x :: after)

theorem Differ.field?_eq (h : Differ entries entries') (hname : name ∈ settingNames) :
    field? name entries = field? name entries' := by
  cases h with
  | other before after key value hkey =>
    have hnone : field? name [(key, value)] = none := by
      rw [field?_eq_none]
      simpa [Lacks] using hkey name hname
    rw [field?_append, field?_append, field?_cons, hnone, Option.or_none]
  | swapped before after x y hne =>
    have hswap : (field? name [y]).or (field? name [x]) =
        (field? name [x]).or (field? name [y]) := by
      cases hx : field? name [x] with
      | none => rw [Option.or_none, Option.none_or]
      | some v =>
        cases hy : field? name [y] with
        | none => rfl
        | some w =>
          rw [field?_singleton_eq_some] at hx hy
          exact absurd (by rw [hx, hy]) hne
    have hpair : field? name (x :: y :: after) = field? name (y :: x :: after) := by
      rw [field?_cons name x, field?_cons name y, Option.or_assoc, hswap, ← Option.or_assoc,
        ← field?_cons, ← field?_cons]
    rw [field?_append, hpair, ← field?_append]

/-- Only the fields under the names of settings count. -/
theorem ofValue_congr (h : ∀ name ∈ settingNames, field? name entries = field? name entries') :
    ofValue (.mapping entries) = ofValue (.mapping entries') := by
  simp only [settingNames, List.forall_mem_cons] at h
  obtain ⟨himport, hnames, hstrict, -⟩ := h
  rw [ofValue, himport, hnames, hstrict, ofValue]

theorem ofValue_eq_of_differ (h : Relation.EqvGen Differ entries entries') :
    ofValue (.mapping entries) = ofValue (.mapping entries') := by
  induction h with
  | rel _ _ h => exact ofValue_congr fun _ hname => h.field?_eq hname
  | refl => rfl
  | symm _ _ _ ih => exact ih.symm
  | trans _ _ _ _ _ ih ih' => exact ih.trans ih'

section

variable [Platform]

theorem parse_of_load {text : String} (h : Platform.loadYaml text = .ok value) :
    parse text = (ofValue value).mapError .invalid := by
  rw [parse, h]

/-- A text that is loaded as a value gives a configuration exactly if the value is null, or a
mapping with the three settings absent or of their types, and then this configuration. Else the
error is about the first condition that fails. A setting that is there is not taken for an absent
one. Entries that are no settings do not count, nor does the order of entries under different keys.
-/
theorem configuration_is_described_by_settings {text : String}
    (h : Platform.loadYaml text = .ok value) :
    (∀ config, parse text = .ok config ↔ value = .null ∧ config = {} ∨
      ∃ entries, value = .mapping entries ∧ Describes entries config) ∧
    (∀ error, parse text = .error error ↔ ∃ e, error = .invalid e ∧ FailsAt value e) ∧
    (∀ config entries v, parse text = .ok config → value = .mapping entries →
      (Holds entries "namespace-alias" v → IsImportName v config.importName) ∧
      (Holds entries "type-names" v → AreTypeNames v config.typeNames) ∧
      (Holds entries "strict" v → IsStrictness v config.strict)) ∧
    (∀ entries entries' text', value = .mapping entries →
      Relation.EqvGen Differ entries entries' →
      Platform.loadYaml text' = .ok (.mapping entries') → parse text' = parse text) := by
  have hok (config : Config) : parse text = .ok config ↔ ofValue value = .ok config := by
    rw [parse_of_load h]
    cases ofValue value <;> simp [Except.mapError]
  have herror (error : ParseError) : parse text = .error error ↔
      ∃ e, error = .invalid e ∧ ofValue value = .error e := by
    rw [parse_of_load h]
    cases ofValue value <;> simp [Except.mapError, eq_comm]
  refine ⟨fun config => ?_, fun error => ?_, fun config entries v hparse hvalue => ?_,
    fun entries entries' text' hvalue hdiffer h' => ?_⟩
  · rw [hok, ofValue_eq_ok]
  · simp only [herror, ofValue_eq_error]
  · rw [hok, hvalue, ofValue_mapping_eq_ok] at hparse
    exact ⟨hparse.importName.standsFor, hparse.typeNames.standsFor, hparse.strict.standsFor⟩
  · rw [parse_of_load h, parse_of_load h', hvalue, ofValue_eq_of_differ hdiffer]

end

/-- A number is no setting as a key, and of two entries under one key the later counts. -/
theorem settings_stand_among_others :
    let text := "7: x\nstrict: maybe\ntype-names: [A, '7']\nstrict: yes\n"
    let entries : List (Value × Value) :=
      [(.other .int "7", .string "x"), (.string "strict", .string "maybe"),
       (.string "type-names", .list [.string "A", .string "7"]), (.string "strict", .bool true)]
    @Platform.loadYaml .standard text = .ok (.mapping entries) ∧
      @parse .standard text = .ok { typeNames := ["A", "7"], strict := true } := by
  intro text entries
  have htokens : Yaml.Token.ofChars text.toList =
      [.blockMappingStart, .key, .scalar "7" true, .value, .scalar "x" true,
       .key, .scalar "strict" true, .value, .scalar "maybe" true,
       .key, .scalar "type-names" true, .value, .flowSequenceStart, .scalar "A" true, .flowEntry,
       .scalar "7" false, .flowSequenceEnd,
       .key, .scalar "strict" true, .value, .scalar "yes" true, .blockEnd, .streamEnd] := by cbv
  have hread : @Platform.loadYaml .standard text = .ok (.mapping entries) := by
    show Value.read text = _
    rw [Value.read, htokens]
    rfl
  have hconfig := (@configuration_is_described_by_settings _ .standard _ hread).1
    { typeNames := ["A", "7"], strict := true }
  refine ⟨hread, hconfig.mpr (.inr ⟨entries, rfl, ?_, ?_, ?_⟩)⟩
  · exact .absent (field?_eq_none.mp rfl)
  · exact .present (field?_eq_some.mp rfl) rfl
  · exact .present (field?_eq_some.mp rfl) rfl

end PropValidators.Config
