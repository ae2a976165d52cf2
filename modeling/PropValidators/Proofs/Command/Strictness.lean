import Mathlib
import PropValidators.Proofs.Command.Outcome
import PropValidators.Proofs.File.Writing
/-!
The command that reports omissions beside strict conversion, and strict conversion beside one that
is not: what they print and how they exit.
-/
namespace PropValidators.Command

/-- Warnings as output end the command with exit code 1, or break it off at the first that there are
no octets for. -/
theorem finished_warnings (omissions : List Omission) (messages : List Notice) :
    let outcome := Outcome.finished 1 (omissions.map .omitted) messages
    let warnings := omissions.map warning
    outcome.code? = (if warnings.all hasOctets then some 1 else none) ∧
      outcome.outputText = lines ((warnings.takeWhile hasOctets).map Text.escaped) := by
  intro outcome warnings
  have hprintable : Notice.isPrintable ∘ Notice.omitted = hasOctets ∘ warning :=
    funext isPrintable_omitted
  refine ⟨?_, ?_⟩
  · show (if (omissions.map Notice.omitted).all Notice.isPrintable then some 1 else none) = _
    rw [List.all_map, List.all_map, hprintable]
  · show printed ((omissions.map Notice.omitted).takeWhile Notice.isPrintable) = _
    rw [List.takeWhile_map, List.takeWhile_map, hprintable, printed_omitted]

section

variable [Platform] {t : FileTree} {verbose : Bool} {request : Path} {options : Options}

/-! ### Strictness as a gate -/

/-- A job differs by its strictness alone where configurations do. -/
theorem load_with_strict {t' : FileTree} {job : Job} {config : Config} {strict : Bool}
    (hrequest : Request.load t' request = Request.load t request)
    (hconfig : Job.loadConfig t request options = .ok config)
    (hconfig' : Job.loadConfig t' request options = .ok { config with strict })
    (hload : Job.load t request options = .ok job) :
    Job.load t' request options = .ok { job with strict } := by
  -- A job takes its strictness from the configuration and nowhere else.
  obtain ⟨r, config', hr, hconfig₀, rfl⟩ := load_eq_ok.mp hload
  cases hconfig.symm.trans hconfig₀
  exact load_eq_ok.mpr ⟨r, _, hrequest.trans hr, hconfig', rfl⟩

/-- Without strictness a conversion that exits with 0 prints and writes the same. -/
theorem runConvert_gate {output : Option String}
    (h : (runConvert t verbose request options output true).2.code? = some 0) :
    (runConvert t verbose request options output true).1 =
        (runConvert t verbose request options output false).1 ∧
      (runConvert t verbose request options output true).2.outputText =
        (runConvert t verbose request options output false).2.outputText := by
  obtain ⟨job, hload, hfree⟩ := exists_job_of_code_zero h
  rw [runConvert_of_free hload hfree, runConvert_of_free hload (obstacles_eq_nil hfree)]
  exact deliver_messages _ _ _ _

/-- Without strictness in the configuration it prints the same, too. -/
theorem runConvert_config_gate {t' : FileTree} {config : Config} {strict : Bool}
    (hrequest : Request.load t' request = Request.load t request)
    (hconfig : Job.loadConfig t request options = .ok config)
    (hconfig' : Job.loadConfig t' request options = .ok { config with strict := false })
    (h : (runConvert t verbose request options none strict).2.code? = some 0) :
    (runConvert t verbose request options none strict).2.outputText =
      (runConvert t' verbose request options none false).2.outputText := by
  obtain ⟨job, hload, hfree⟩ := exists_job_of_code_zero h
  have hload' := load_with_strict hrequest hconfig hconfig' hload
  have hfree' : (Job.obstacles { job with strict := false } false).value = [] := rfl
  rw [runConvert_of_free hload hfree, runConvert_of_free hload' hfree',
    deliver_printed rfl (serializeWithin_of_load hload),
    deliver_printed rfl (serializeWithin_of_load hload')]
  rfl

/-! ### The check beside strict conversion -/

theorem runConvert_of_complete (verbose : Bool) {job : Job}
    (hload : Job.load t request options = .ok job)
    (hnil : job.omissions.value = []) :
    ∃ messages, runConvert t verbose request options none true =
      (t, .finished 0 [.converted (Artifact.serialize job.convert.value)] messages) := by
  rw [runConvert_of_free hload (obstacles_true job ▸ hnil),
    deliver_printed rfl (serializeWithin_of_load hload)]
  exact ⟨_, rfl⟩

theorem runConvert_of_omissions {job : Job} (hload : Job.load t request options = .ok job)
    (hne : job.omissions.value ≠ []) :
    runConvert t verbose request options none true =
      (t, .ofError (skipped verbose job.omissions ++ job.omissions.value.map .omitted)
        (.omissions job.omissions.value.length)) := by
  rw [runConvert_of_obstacles hload (obstacles_true job ▸ hne), obstacles_true]
  rfl

theorem runConvert_tree (t : FileTree) (verbose : Bool) (request : Path) (options : Options) :
    (runConvert t verbose request options none true).1 = t := by
  cases hload : Job.load t request options with
  | error error => rw [runConvert_of_error hload]
  | ok job =>
    by_cases hnil : job.omissions.value = []
    · obtain ⟨messages, hrun⟩ := runConvert_of_complete verbose hload hnil
      rw [hrun]
    · rw [runConvert_of_omissions hload hnil]

theorem runCheck_messageText {job : Job} (hload : Job.load t request options = .ok job) :
    (runCheck t verbose request options).messageText =
      lines ((recordLines verbose job.omissions).map Text.escaped) := by
  by_cases hnil : job.omissions.value = []
  · rw [runCheck_of_complete hload hnil, Outcome.messageText, printed_skipped]
  · rw [runCheck_of_omissions hload hnil, Outcome.messageText, printed_skipped]

theorem runConvert_warnings {job : Job} (hload : Job.load t request options = .ok job)
    (hne : job.omissions.value ≠ []) :
    let convert := (runConvert t verbose request options none true).2
    let warnings := job.omissions.value.map warning
    convert.code? = some 1 ∧ convert.outputText = "" ∧
      convert.messageText =
        lines ((recordLines verbose job.omissions ++ warnings).map Text.escaped ++
          ["Error: " ++ toString warnings.length ++ " omission(s) in strict mode."]) := by
  intro convert warnings
  have hrun : convert = .ofError (skipped verbose job.omissions ++ job.omissions.value.map .omitted)
      (.omissions job.omissions.value.length) :=
    congrArg Prod.snd (runConvert_of_omissions hload hne)
  have hmessage : (Error.omissions job.omissions.value.length).message? =
      some (toString warnings.length ++ " omission(s) in strict mode.") := by
    rw [List.length_map]
    rfl
  have hline : "Error: " ++ (toString warnings.length ++ " omission(s) in strict mode.") =
      "Error: " ++ toString warnings.length ++ " omission(s) in strict mode." :=
    String.append_assoc.symm
  rw [hrun, Outcome.code?_ofError, Outcome.messageText_ofError hmessage, hline]
  refine ⟨rfl, Outcome.outputText_ofError _ _, ?_⟩
  rw [printed_append, printed_skipped, printed_omitted, List.map_append, lines_append, lines_append]

/-- A warning that there are no octets for breaks the check off, but not strict conversion. -/
theorem codes_of_unprintable {file : String} {job : Job}
    (hload : Job.load t (Path.ofString file) options = .ok job)
    (h : (job.omissions.value.map warning).all hasOctets = false) :
    ((Invocation.check verbose file options).run t).2.code? = none ∧
      ((Invocation.convert verbose file options none true).run t).2.code? = some 1 := by
  have hne : job.omissions.value ≠ [] := by
    intro hnil
    rw [hnil] at h
    cases h
  have hcheck : ((Invocation.check verbose file options).run t).2 = _ :=
    runCheck_of_omissions hload hne
  have hcode := (finished_warnings job.omissions.value (skipped verbose job.omissions)).1
  rw [h] at hcode
  rw [hcheck]
  exact ⟨hcode, (runConvert_warnings hload hne).1⟩

/-- The check for omissions and strict conversion agree: they report an error of loading alike, or
break off alike where it has no words, and they give the same warnings, the one as output and the
other as messages that end with their number. They exit alike, too, but for the check being broken
off at the first warning that there are no octets for. Strictness only gates: what strict conversion
prints, whether options or the configuration make it strict, is what conversion prints without. -/
theorem check_agrees_with_strict_conversion (t : FileTree) (verbose : Bool) (request : String)
    (options : Options) :
    let path := Path.ofString request
    let check := (Invocation.check verbose request options).run t
    let convert (output : Option String) (strict : Bool) :=
      (Invocation.convert verbose request options output strict).run t
    (check.1 = t ∧ (convert none true).1 = t) ∧
    (∀ error, Job.load t path options = .error error →
      check.2 = (convert none true).2 ∧ check.2.outputText = "" ∧
      check.2.code? = error.message?.map (fun _ => 1) ∧
      ∀ message, error.message? = some message →
        check.2.messageText = lines ["Error: " ++ message]) ∧
    (∀ job, Job.load t path options = .ok job →
      let records := recordLines verbose job.omissions
      let warnings := job.omissions.value.map warning
      check.2.messageText = lines (records.map Text.escaped) ∧
      (warnings = [] →
        check.2.code? = some 0 ∧ (convert none true).2.code? = some 0 ∧
        check.2.outputText = lines ["No omissions found."]) ∧
      (warnings ≠ [] →
        check.2.code? = (if warnings.all hasOctets then some 1 else none) ∧
        check.2.outputText = lines ((warnings.takeWhile hasOctets).map Text.escaped) ∧
        (convert none true).2.code? = some 1 ∧ (convert none true).2.outputText = "" ∧
        (convert none true).2.messageText = lines ((records ++ warnings).map Text.escaped ++
          ["Error: " ++ toString warnings.length ++ " omission(s) in strict mode."]))) ∧
    (∀ output, (convert output true).2.code? = some 0 →
      (convert output true).1 = (convert output false).1 ∧
      (convert output true).2.outputText = (convert output false).2.outputText) ∧
    (∀ t' config strict, Request.load t' path = Request.load t path →
      Job.loadConfig t path options = .ok config →
      Job.loadConfig t' path options = .ok { config with strict := false } →
      (convert none strict).2.code? = some 0 →
      (convert none strict).2.outputText =
        ((Invocation.convert verbose request options none false).run t').2.outputText) := by
  intro path check convert
  refine ⟨⟨rfl, runConvert_tree t verbose path options⟩, ?_, ?_, ?_, ?_⟩
  · intro error hload
    have hcheck : check.2 = .ofError [] error := runCheck_of_error hload
    refine ⟨hcheck.trans (congrArg Prod.snd (runConvert_of_error hload)).symm, ?_, ?_, ?_⟩
    · rw [hcheck, Outcome.outputText_ofError]
    · rw [hcheck, Outcome.code?_ofError]
    · intro message hmessage
      rw [hcheck, Outcome.messageText_ofError hmessage, printed_nil, String.empty_append]
  · intro job hload records warnings
    refine ⟨runCheck_messageText hload, ?_, ?_⟩
    · intro hnil
      rw [List.map_eq_nil_iff] at hnil
      have hcheck : check.2 = _ := runCheck_of_complete hload hnil
      obtain ⟨messages, hrun⟩ := runConvert_of_complete verbose hload hnil
      have hconvert : (convert none true).2 = _ := congrArg Prod.snd hrun
      rw [hcheck, hconvert]
      exact ⟨Outcome.code?_finished rfl, Outcome.code?_finished rfl,
        Outcome.outputText_finished rfl⟩
    · intro hne
      rw [ne_eq, List.map_eq_nil_iff] at hne
      have hcheck : check.2 = _ := runCheck_of_omissions hload hne
      obtain ⟨hcode, htext⟩ := finished_warnings job.omissions.value (skipped verbose job.omissions)
      rw [hcheck]
      exact ⟨hcode, htext, runConvert_warnings hload hne⟩
  · exact fun output h => runConvert_gate h
  · exact fun t' config strict hrequest hconfig hconfig' h =>
      runConvert_config_gate hrequest hconfig hconfig' h

end

/-- A tree with a request for nothing. -/
def requestAlone : FileTree := ⟨.root, [(⟨["r.json"]⟩, .file (Utf8.encode "{}".toList))]⟩

/-- The same request beside a configuration. -/
def requestBeside (config : String) : FileTree :=
  ⟨.root, (⟨[Config.fileName]⟩, .file (Utf8.encode config.toList)) :: requestAlone.nodes⟩

/-- A file that has an empty object is a request for nothing. -/
theorem load_emptyRequest {t : FileTree} {p : Path}
    (hread : t.read p = .ok (Utf8.encode "{}".toList)) : Request.load t p = .ok ⟨[], [], none⟩ :=
  Request.load_compact (j := .object []) (by decide) hread

theorem loadConfig_requestBeside [Platform] {config : String} (hplain : ArePlain config.toList) :
    Job.loadConfig (requestBeside config) (Path.ofString "r.json") {} =
      ((Config.parse config).mapError .invalid).mapError (.config ⟨false, [Config.fileName]⟩) := by
  have hpath : Job.configPath? (requestBeside config) (Path.ofString "r.json") {} =
      some ⟨false, [Config.fileName]⟩ := rfl
  have hread : (requestBeside config).read ⟨false, [Config.fileName]⟩ =
      .ok (Utf8.encode config.toList) := rfl
  simp only [Job.loadConfig, hpath, Config.load, FileTree.load,
    FileTree.readText_of_plain hread hplain]

/-- A request beside a configuration that makes conversion strict prints what it prints alone. -/
theorem strict_configuration_gates :
    (@Invocation.run .standard (requestBeside "strict: true")
        (.convert false "r.json" {} none false)).2.outputText =
      (@Invocation.run .standard requestAlone
        (.convert false "r.json" {} none false)).2.outputText := by
  have hrequest : Request.load (requestBeside "strict: true") (Path.ofString "r.json") =
      .ok ⟨[], [], none⟩ := load_emptyRequest rfl
  have halone : Request.load requestAlone (Path.ofString "r.json") = .ok ⟨[], [], none⟩ :=
    load_emptyRequest rfl
  have htokens : Yaml.Token.ofChars "strict: true".toList =
      [.blockMappingStart, .key, .scalar "strict" true, .value, .scalar "true" true, .blockEnd,
       .streamEnd] := by cbv
  have hread : @Platform.loadYaml .standard "strict: true" =
      .ok (.mapping [(.string "strict", .bool true)]) := by
    show Yaml.Value.read _ = _
    rw [Yaml.Value.read, htokens]
    rfl
  have hparse : @Config.parse .standard "strict: true" = .ok { strict := true } := by
    simp only [Config.parse, hread]
    rfl
  have hconfig : @Job.loadConfig .standard (requestBeside "strict: true") (Path.ofString "r.json")
      {} = .ok { strict := true } := by
    rw [@loadConfig_requestBeside .standard _ (by decide), hparse]
    rfl
  have hdefault : @Job.loadConfig .standard requestAlone (Path.ofString "r.json") {} = .ok {} := rfl
  have hfree : ((Job.ofRequest {} ⟨[], [], none⟩ { strict := true }).obstacles false).value = [] :=
    rfl
  have hcode : (@runConvert .standard (requestBeside "strict: true") false (Path.ofString "r.json")
      {} none false).2.code? = some 0 := by
    have hload := (@load_eq_ok .standard _ _ _ _).mpr ⟨_, _, hrequest, hconfig, rfl⟩
    rw [@runConvert_of_free .standard _ _ _ _ _ _ _ hload hfree,
      @deliver_printed .standard _ _ _ _ _ rfl (@serializeWithin_of_load .standard _ _ _ _ hload)]
    exact Outcome.code?_finished rfl
  exact (@check_agrees_with_strict_conversion .standard (requestBeside "strict: true") false
    "r.json" {}).2.2.2.2 requestAlone _ false (halone.trans hrequest.symm) hconfig hdefault hcode

/-- A configuration that selects a name which is one surrogate breaks the check off, where strict
conversion reports the name and exits with 1. -/
theorem selected_surrogate_breaks_check_off :
    (@Invocation.run .standard (requestBeside "type-names: [\"\\uD800\"]")
        (.check false "r.json" {})).2.code? = none ∧
      (@Invocation.run .standard (requestBeside "type-names: [\"\\uD800\"]")
        (.convert false "r.json" {} none true)).2.code? = some 1 := by
  have htokens : Yaml.Token.ofChars "type-names: [\"\\uD800\"]".toList =
      [.blockMappingStart, .key, .scalar "type-names" true, .value, .flowSequenceStart,
       .scalar [.surrogate 0] false, .flowSequenceEnd, .blockEnd, .streamEnd] := by cbv
  have hread : @Platform.loadYaml .standard "type-names: [\"\\uD800\"]" =
      .ok (.mapping [(.string "type-names", .list [.string [.surrogate 0]])]) := by
    show Yaml.Value.read _ = _
    rw [Yaml.Value.read, htokens]
    rfl
  have hparse : @Config.parse .standard "type-names: [\"\\uD800\"]" =
      .ok { typeNames := [[.surrogate 0]] } := by
    simp only [Config.parse, hread]
    rfl
  have hrequest : Request.load (requestBeside "type-names: [\"\\uD800\"]")
      (Path.ofString "r.json") = .ok ⟨[], [], none⟩ := load_emptyRequest rfl
  have hconfig : @Job.loadConfig .standard (requestBeside "type-names: [\"\\uD800\"]")
      (Path.ofString "r.json") {} = .ok { typeNames := [[.surrogate 0]] } := by
    rw [@loadConfig_requestBeside .standard _ (by decide), hparse]
    rfl
  have hload := (@load_eq_ok .standard _ _ _ _).mpr ⟨_, _, hrequest, hconfig, rfl⟩
  let job := Job.ofRequest {} ⟨[], [], none⟩ { typeNames := [[.surrogate 0]] }
  have homissions : job.omissions.value = [⟨[.surrogate 0], none, .undeclared⟩] := rfl
  have hoctets : hasOctets (warning ⟨[.surrogate 0], none, .undeclared⟩) = false := by
    have hsurrogate : (Text.toChars? [.surrogate 0]).isSome = false := rfl
    simp only [hasOctets, warning, Omission.message, Text.isSome_toChars?_append, hsurrogate,
      Bool.false_and, Bool.and_false]
  have hbroken : (job.omissions.value.map warning).all hasOctets = false := by
    rw [homissions, List.map_singleton, List.all_cons, hoctets, Bool.false_and]
  exact @codes_of_unprintable .standard _ false _ _ _ hload hbroken

end PropValidators.Command
