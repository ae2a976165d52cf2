import PropValidators.Proofs.Command.Strictness
import PropValidators.Proofs.Document.TypeExpr
import PropValidators.Proofs.File.Shape
import PropValidators.Proofs.File.Writing
/-!
What a conversion that succeeds has done: which settings were in force, and where the converted
props are.
-/
namespace PropValidators.Command

/-! ### The first setting that is not empty -/

section First

variable {α : Type} {empty : α}

/-- The first of several settings that is not empty; if all are, so is it. -/
inductive FirstNonempty (empty : α) : List α → α → Prop
  | none : FirstNonempty empty [] empty
  | first {x : α} (xs : List α) : x ≠ empty → FirstNonempty empty (x :: xs) x
  | later {xs : List α} {y : α} : FirstNonempty empty xs y → FirstNonempty empty (empty :: xs) y

/-- Settings that are the same as far as the first that is not empty. -/
inductive SameToFirst (empty : α) : List α → List α → Prop
  | none : SameToFirst empty [] []
  | first {x : α} (xs ys : List α) : x ≠ empty → SameToFirst empty (x :: xs) (x :: ys)
  | later {xs ys : List α} : SameToFirst empty xs ys → SameToFirst empty (empty :: xs) (empty :: ys)

/-- Settings behind the first that is not empty do not count. -/
theorem FirstNonempty.eq_of_same {xs ys : List α} {x y : α} (hx : FirstNonempty empty xs x)
    (hy : FirstNonempty empty ys y) (h : SameToFirst empty xs ys) : y = x := by
  induction h with
  | none =>
    cases hx
    cases hy
    rfl
  | first xs ys hne =>
    cases hx with
    | later => exact absurd rfl hne
    | first =>
      cases hy with
      | later => exact absurd rfl hne
      | first => rfl
  | later _ ih =>
    cases hx with
    | first _ hne => exact absurd rfl hne
    | later hx =>
      cases hy with
      | first _ hne => exact absurd rfl hne
      | later hy => exact ih hx hy

theorem FirstNonempty.same {xs : List α} {x : α} (h : FirstNonempty empty xs x) :
    SameToFirst empty xs xs := by
  induction h with
  | none => exact .none
  | first xs hne => exact .first xs xs hne
  | later _ ih => exact .later ih

theorem FirstNonempty.unique {xs : List α} {x y : α} (hx : FirstNonempty empty xs x)
    (hy : FirstNonempty empty xs y) : y = x := hx.eq_of_same hy hx.same

theorem FirstNonempty.ne_empty {xs : List α} {x y : α} (h : FirstNonempty empty xs x)
    (hy : y ∈ xs) (hne : y ≠ empty) : x ≠ empty := by
  induction h with
  | none => cases hy
  | first xs hx => exact hx
  | later _ ih =>
    rcases List.mem_cons.mp hy with rfl | hy
    · exact absurd rfl hne
    · exact ih hy

end First

theorem nonempty?_eq_none {text : Option String} : nonempty? text = none ↔ text.getD "" = "" := by
  cases text with
  | none => simp [nonempty?]
  | some s => by_cases h : s = "" <;> simp [nonempty?, Option.filter, h]

theorem nonempty?_eq_some {text : Option String} {s : String} :
    nonempty? text = some s ↔ text = some s ∧ s ≠ "" := by
  simp [nonempty?, Option.filter_eq_some_iff]

theorem firstText_first (texts : List (Option Text)) (default : Text) :
    FirstNonempty [] (texts.map (·.getD []) ++ [default]) (Job.firstText texts default) := by
  induction texts with
  | nil =>
    by_cases h : default = []
    · subst h
      exact .later .none
    · exact .first [] h
  | cons text texts ih =>
    rw [Job.firstText, List.findSome?_cons]
    rcases text with _ | _ | ⟨p, s⟩
    · exact .later ih
    · exact .later ih
    · exact .first _ (List.cons_ne_nil p s)

theorem firstNames_first (lists : List (List Text)) :
    FirstNonempty [] lists (Job.firstNames lists) := by
  induction lists with
  | nil => exact .none
  | cons names lists ih =>
    cases names with
    | nil => exact .later ih
    | cons name names => exact .first _ (List.cons_ne_nil name names)

/-! ### Settings in force -/

/-- The names that the framework may be imported as, the one that counts first. -/
def importNames (options : Options) (r : Request) (config : Config) : List Text :=
  [(options.importName.map .ofString).getD [], r.importName.getD [], config.importName.getD [],
    defaultImportName]

/-- The names that may be selected, those that count first. -/
def selections (options : Options) (r : Request) (config : Config) : List (List Text) :=
  [options.typeNames.map .ofString, r.typeNames, config.typeNames, r.groups.map (·.1)]

theorem ofRequest_importName (options : Options) (r : Request) (config : Config) :
    FirstNonempty [] (importNames options r config)
      (Job.ofRequest options r config).importName :=
  firstText_first [options.importName.map .ofString, r.importName, config.importName]
    defaultImportName

theorem ofRequest_typeNames (options : Options) (r : Request) (config : Config) :
    FirstNonempty [] (selections options r config) (Job.ofRequest options r config).typeNames :=
  firstNames_first _

/-- Jobs are the same but for their strictness if their groups are the same and their settings as
far as they count. -/
theorem ofRequest_congr {options options' : Options} {r r' : Request} {config config' : Config}
    (hgroups : r'.groups = r.groups)
    (himport : SameToFirst [] (importNames options r config) (importNames options' r' config'))
    (hnames : SameToFirst [] (selections options r config) (selections options' r' config')) :
    Job.ofRequest options' r' config' =
      { Job.ofRequest options r config with strict := config'.strict } := by
  have himport' := (ofRequest_importName options r config).eq_of_same
    (ofRequest_importName options' r' config') himport
  have hnames' := (ofRequest_typeNames options r config).eq_of_same
    (ofRequest_typeNames options' r' config') hnames
  calc Job.ofRequest options' r' config'
      = ⟨r'.groups, (Job.ofRequest options' r' config').typeNames,
          (Job.ofRequest options' r' config').importName, config'.strict⟩ := rfl
    _ = { Job.ofRequest options r config with strict := config'.strict } := by
        rw [hgroups, himport', hnames']
        rfl

/-- Two jobs of the same strictness, wherever that comes from, have the same in their way. -/
theorem obstacles_congr {job : Job} {strict strict₁ strict₂ : Bool}
    (hstrict : (strict₁ || strict₂) = (job.strict || strict)) :
    Job.obstacles { job with strict := strict₁ } strict₂ = job.obstacles strict := by
  unfold Job.obstacles
  rw [hstrict]
  rfl

/-- The configuration in force: that of the file that options name, else that of the file beside
the request if one is there, else one without settings. -/
structure ConfigInForce [Platform] (t : FileTree) (request : Path) (options : Options)
    (config : Config) : Prop where
  named : ∀ file, options.config = some file → file ≠ "" →
    Config.load t (Path.ofString file) = .ok config
  beside : options.config.getD "" = "" → t.contains (request.parent.child Config.fileName) = true →
    Config.load t (request.parent.child Config.fileName) = .ok config
  absent : options.config.getD "" = "" → t.contains (request.parent.child Config.fileName) = false →
    config = {}

section

variable [Platform] {t : FileTree} {verbose : Bool} {request : Path} {options : Options}

theorem configInForce_iff {config : Config} :
    ConfigInForce t request options config ↔ Job.loadConfig t request options = .ok config := by
  unfold Job.loadConfig Job.configPath?
  have hload (path : Path) : (Config.load t path).mapError (Error.config path) = .ok config ↔
      Config.load t path = .ok config := by
    cases Config.load t path <;> simp [Except.mapError]
  cases h : nonempty? options.config with
  | some file =>
    obtain ⟨hconfig, hne⟩ := nonempty?_eq_some.mp h
    simp only [hload]
    constructor
    · exact fun hforce => hforce.named file hconfig hne
    · intro hfile
      refine ⟨fun file' hconfig' _ => ?_, fun hempty => ?_, fun hempty => ?_⟩
      · cases hconfig.symm.trans hconfig'
        exact hfile
      · simp [hconfig, hne] at hempty
      · simp [hconfig, hne] at hempty
  | none =>
    have hempty := nonempty?_eq_none.mp h
    have hnamed : ∀ file, options.config = some file → ¬file ≠ "" := by
      rintro file hconfig hne
      simp [hconfig, hne] at hempty
    cases hthere : t.contains (request.parent.child Config.fileName) with
    | true =>
      simp only [hload, hthere, ↓reduceIte]
      constructor
      · exact fun hforce => hforce.beside hempty hthere
      · intro hfile
        refine ⟨fun file hconfig hne => absurd hne (hnamed file hconfig), fun _ _ => hfile, ?_⟩
        intro _ hno
        cases hno.symm.trans hthere
    | false =>
      simp only [hthere, Bool.false_eq_true, ↓reduceIte, Except.ok.injEq]
      constructor
      · exact fun hforce => (hforce.absent hempty hthere).symm
      · rintro rfl
        refine ⟨fun file hconfig hne => absurd hne (hnamed file hconfig), ?_, fun _ _ => rfl⟩
        intro _ hyes
        cases hyes.symm.trans hthere

/-! ### Delivery -/

section Delivered

variable {job : Job} {output : Option String} {strict : Bool}

/-- Without a file to write to, the converted props are the output. -/
theorem runConvert_printed (hload : Job.load t request options = .ok job)
    (hfree : (job.obstacles strict).value = []) (houtput : nonempty? output = none) :
    (runConvert t verbose request options output strict).1 = t ∧
      (runConvert t verbose request options output strict).2.outputText =
        Artifact.serialize job.convert.value ++ "\n" := by
  rw [runConvert_of_free hload hfree, deliver_printed houtput (serializeWithin_of_load hload)]
  exact ⟨rfl, (Outcome.outputText_finished rfl).trans (lines_singleton _)⟩

/-- With a file to write to, the converted props are in it and are read back from it. -/
theorem runConvert_written {file : String} (hload : Job.load t request options = .ok job)
    (hfree : (job.obstacles strict).value = []) (houtput : nonempty? output = some file)
    (hcode : (runConvert t verbose request options output strict).2.code? = some 0) :
    let run := runConvert t verbose request options output strict
    run.1.read (Path.ofString file) =
        .ok (Utf8.encode (Artifact.serialize job.convert.value).toList) ∧
      Artifact.load run.1 (Path.ofString file) = .ok job.convert.value ∧
      run.2.outputText = "Wrote " ++ toString job.convert.value.length ++ " prop type(s) to '" ++
        (Path.ofString file).text ++ "'." ++ "\n" := by
  intro run
  have hrun : run = _ := runConvert_of_free hload hfree
  rw [runConvert_of_free hload hfree] at hcode
  obtain ⟨t', hsave, hdeliver⟩ := deliver_written houtput hcode
  rw [hrun, hdeliver]
  refine ⟨Artifact.read_save hsave, Artifact.load_save hsave, ?_⟩
  exact (Outcome.outputText_finished rfl).trans (lines_singleton _)

/-- How delivery ends depends on the shape of the tree alone. -/
theorem deliver_of_sameShape {t₁ t₂ : FileTree} {props : List Assignment} {messages : List Notice}
    (h : t₁.SameShape t₂) :
    (deliver t₂ props output messages).2 = (deliver t₁ props output messages).2 := by
  unfold deliver
  cases nonempty? output with
  | none => cases Artifact.serializeWithin Platform.limits props <;> rfl
  | some file =>
    cases hroom : Artifact.serializeWithin Platform.limits props with
    | ok text =>
      have hend := h.write (Path.ofString file) (Utf8.encode text.toList)
      obtain ⟨t₁', t₂', -, ⟨hwrite₁, hwrite₂⟩ | ⟨e, hwrite₁, hwrite₂⟩⟩ := hend.cases
      · simp only [Artifact.save, hroom, hwrite₁, hwrite₂]
        rfl
      · simp only [Artifact.save, hroom, hwrite₁, hwrite₂]
        rfl
    | error overrun =>
      have hend := h.ensureDirectories (Path.ofString file).parent
      obtain ⟨t₁', t₂', -, ⟨hmade₁, hmade₂⟩ | ⟨e, hmade₁, hmade₂⟩⟩ := hend.cases
      · simp only [Artifact.save, hroom, hmade₁, hmade₂]
      · simp only [Artifact.save, hroom, hmade₁, hmade₂]

/-- What is delivered depends on the job alone. -/
theorem deliver_congr {t₁ t₂ : FileTree} {props : List Assignment} {messages : List Notice}
    (hcode₁ : (deliver t₁ props output messages).2.code? = some 0)
    (hcode₂ : (deliver t₂ props output messages).2.code? = some 0) :
    (deliver t₂ props output messages).2 = (deliver t₁ props output messages).2 ∧
      ∀ file, nonempty? output = some file →
        (deliver t₂ props output messages).1.read (Path.ofString file) =
          (deliver t₁ props output messages).1.read (Path.ofString file) := by
  cases houtput : nonempty? output with
  | none =>
    rw [deliver_zero_printed houtput hcode₁, deliver_zero_printed houtput hcode₂]
    exact ⟨rfl, fun _ h => nomatch h⟩
  | some file =>
    obtain ⟨t₁', hsave₁, hdeliver₁⟩ := deliver_written houtput hcode₁
    obtain ⟨t₂', hsave₂, hdeliver₂⟩ := deliver_written houtput hcode₂
    rw [hdeliver₁, hdeliver₂]
    refine ⟨rfl, fun file' h => ?_⟩
    cases h
    exact (Artifact.read_save hsave₂).trans (Artifact.read_save hsave₁).symm

end Delivered

/-- What a conversion that exits with 0 means. A request and the configuration in force were loaded;
the framework is imported under the first name that is not empty, which there always is, and the
first names that are any are selected. The props converted so are the output, or stand in the file
that is written, from which as many are read back as are reported. Settings behind the first that is
not empty do not count: another run in which the same are in force, and are as strict, ends in the
same way if only contents of files differ, and also if it exits with 0. -/
theorem conversion_follows_settings (t : FileTree) (verbose : Bool) (request : String)
    (options : Options) (output : Option String) (strict : Bool)
    (h : ((Invocation.convert verbose request options output strict).run t).2.code? = some 0) :
    let path := Path.ofString request
    let run := (Invocation.convert verbose request options output strict).run t
    ∃ r config importName names, Request.load t path = .ok r ∧
      ConfigInForce t path options config ∧
      importName ≠ [] ∧ FirstNonempty [] (importNames options r config) importName ∧
      FirstNonempty [] (selections options r config) names ∧
      let text := Artifact.serialize (convertSelection { importName } r.groups names).value
      (output.getD "" = "" → run.1 = t ∧ run.2.outputText = text ++ "\n") ∧
      (∀ file, output = some file → file ≠ "" →
        run.1.read (Path.ofString file) = .ok (Utf8.encode text.toList) ∧
        ∃ back, Artifact.load run.1 (Path.ofString file) = .ok back ∧
          run.2.outputText = "Wrote " ++ toString back.length ++ " prop type(s) to '" ++
            (Path.ofString file).text ++ "'." ++ "\n") ∧
      (∀ t' request' options' strict' r' config',
        let path' := Path.ofString request'
        let run' := (Invocation.convert verbose request' options' output strict').run t'
        Request.load t' path' = .ok r' → ConfigInForce t' path' options' config' →
        r'.groups = r.groups → (config'.strict || strict') = (config.strict || strict) →
        SameToFirst [] (importNames options r config) (importNames options' r' config') →
        SameToFirst [] (selections options r config) (selections options' r' config') →
        (output.getD "" = "" → run'.2 = run.2) ∧
        (t.SameShape t' ∨ run'.2.code? = some 0 →
          run'.2 = run.2 ∧ ∀ file, output = some file → file ≠ "" →
            run'.1.read (Path.ofString file) = run.1.read (Path.ofString file))) := by
  intro path run
  obtain ⟨job, hload, hfree⟩ := exists_job_of_code_zero h
  obtain ⟨r, config, hrequest, hconfig, rfl⟩ := load_eq_ok.mp hload
  have himport := ofRequest_importName options r config
  have hnames := ofRequest_typeNames options r config
  have hdefault : defaultImportName ∈ importNames options r config := by simp [importNames]
  refine ⟨r, config, _, _, hrequest, configInForce_iff.mpr hconfig,
    himport.ne_empty hdefault (by decide), himport, hnames, ?_, ?_, ?_⟩
  · exact fun houtput => runConvert_printed hload hfree (nonempty?_eq_none.mpr houtput)
  · intro file hfile hne
    obtain ⟨hread, hback, htext⟩ :=
      runConvert_written hload hfree (nonempty?_eq_some.mpr ⟨hfile, hne⟩) h
    exact ⟨hread, _, hback, htext⟩
  · intro t' request' options' strict' r' config' path' run' hrequest' hconfig' hgroups hstrict
      hsameImport hsameNames
    have hload' : Job.load t' path' options' = .ok (Job.ofRequest options' r' config') :=
      load_eq_ok.mpr ⟨r', config', hrequest', configInForce_iff.mp hconfig', rfl⟩
    -- The other job is the same one, but for how much of its strictness the configuration gives.
    rw [ofRequest_congr hgroups hsameImport hsameNames] at hload'
    have hobstacles : Job.obstacles _ strict' = (Job.ofRequest options r config).obstacles strict :=
      obstacles_congr hstrict
    have hrun : run = _ := runConvert_of_free hload hfree
    have hrun' : run' = _ := runConvert_of_free hload' (hobstacles ▸ hfree)
    rw [hobstacles] at hrun'
    refine ⟨fun houtput => ?_, fun h' => ?_⟩
    · have hroom := serializeWithin_of_load hload
      have hroom' := serializeWithin_of_load hload'
      rw [hrun, hrun', deliver_printed (nonempty?_eq_none.mpr houtput) hroom,
        deliver_printed (nonempty?_eq_none.mpr houtput) hroom']
      rfl
    · change run.2.code? = some 0 at h
      rw [hrun] at h ⊢
      rw [hrun'] at h' ⊢
      replace h' := h'.elim (fun hshape => (deliver_of_sameShape hshape).symm ▸ h) id
      obtain ⟨houtcome, hfiles⟩ := deliver_congr h h'
      exact ⟨houtcome, fun file hfile hne => hfiles file (nonempty?_eq_some.mpr ⟨hfile, hne⟩)⟩

end

/-- A property whose type is one of the framework where that is imported as `P`. -/
def icon : Property :=
  ⟨.identifier "icon", some (.reference (.qualified (.identifier "P") "Ref") []), none⟩

/-- A request that imports the framework as `P`. -/
def iconRequest : Request := ⟨[(("Props" : Text), [icon])], [], some "P"⟩

/-- The same request as a document. -/
def iconDocument : Json :=
  .object
    [Json.member "types" (.object [Json.member "Props" (.array [icon.toJson])]),
     Json.member "namespace_alias" (.ofString "P")]

/-- A tree with nothing but that document. -/
def iconAlone : FileTree :=
  ⟨.root, [(⟨["r.json"]⟩, .file (Utf8.encode iconDocument.compact.toList))]⟩

theorem check_iconDocument : Request.check iconDocument = .valid iconRequest := by
  have hproperties : Property.checkList (.array [icon.toJson]) = .valid [icon] :=
    Property.checkList_toJson [icon]
  have hgroups : Groups.check (.object [Json.member "Props" (.array [icon.toJson])]) =
      .valid [(("Props" : Text), [icon])] := by
    simp [Groups.check, Json.member, Groups.checkEntries, Groups.checkEntry, hproperties,
      Checked.combine, Keyed.settled, Keyed.put]
  simp [Request.check, iconDocument, iconRequest, Members.optional_eq, hgroups,
    Json.checkStringOrNull, Json.ofString, Json.checkString, Checked.map]

/-- An option that is empty does not count. The request's own name for the framework is in force,
all its groups are selected, and what is converted so stands in the file that is written. -/
theorem requested_import_name_is_in_force :
    ∃ after outcome, @Invocation.run .standard iconAlone (.convert false "r.json"
        { importName := some "" } (some "out/p.json") false) = (after, outcome) ∧
      after.read (Path.ofString "out/p.json") =
        .ok (Utf8.encode (Artifact.serialize
          (convertSelection { importName := "P" } iconRequest.groups ["Props"]).value).toList) ∧
      ∃ back, @Artifact.load .standard after (Path.ofString "out/p.json") = .ok back ∧
        outcome.outputText = "Wrote " ++ toString back.length ++ " prop type(s) to '" ++
          (Path.ofString "out/p.json").text ++ "'." ++ "\n" := by
  let options : Options := { importName := some "" }
  have hrequest : Request.load iconAlone (Path.ofString "r.json") = .ok iconRequest := by
    rw [Request.load_compact (j := iconDocument) (by cbv) rfl, check_iconDocument]
    rfl
  have hconfig : @Job.loadConfig .standard iconAlone (Path.ofString "r.json") options =
      .ok {} := rfl
  have hload := (@load_eq_ok .standard _ _ _ _).mpr ⟨_, _, hrequest, hconfig, rfl⟩
  have hroom := Artifact.serializeWithin_eq_ok.mp (@serializeWithin_of_load .standard _ _ _ _ hload)
  have hsave (props : List Assignment)
      (h : Artifact.overrun? (@Platform.limits .standard) props = none) :
      ∃ t', @Artifact.save .standard iconAlone (Path.ofString "out/p.json") props = (t', .ok ()) :=
    ⟨_, (@Artifact.save_eq_ok _ _ _ _ .standard).mpr ⟨h, rfl⟩⟩
  have hcode : (@runConvert .standard iconAlone false (Path.ofString "r.json") options
      (some "out/p.json") false).2.code? = some 0 := by
    obtain ⟨t', hsaved⟩ := hsave _ hroom.1
    rw [@runConvert_of_free .standard _ _ _ _ _ _ _ hload (by simp [Job.obstacles, Job.ofRequest]),
      @deliver_of_save .standard _ _ _ _ _ _ rfl hsaved]
    exact Outcome.code?_finished rfl
  obtain ⟨r, config, importName, names, hr, hc, -, himport, hnames, -, hwritten, -⟩ :=
    @conversion_follows_settings .standard iconAlone false "r.json" options (some "out/p.json")
      false hcode
  obtain rfl := Except.ok.inj (hrequest.symm.trans hr)
  obtain rfl := Except.ok.inj
    (hconfig.symm.trans ((@configInForce_iff .standard _ _ _ _).mp hc))
  obtain rfl : Text.ofString "P" = importName := himport.unique (ofRequest_importName _ _ _)
  obtain rfl : [Text.ofString "Props"] = names := hnames.unique (ofRequest_typeNames _ _ _)
  exact ⟨_, _, Prod.mk.eta.symm, hwritten "out/p.json" rfl (by decide)⟩

end PropValidators.Command
