import PropValidators.Proofs.Command.Strictness
import PropValidators.Proofs.Config.Failure
import PropValidators.Proofs.File.Path
/-!
How failures of a command end: all of them in an exit code and an error that is printed, but for a
few that break the command off. Those are texts that are no UTF-8, configurations that break their
loader off, paths that no file can have, and output that there are no octets for.
-/
namespace PropValidators

namespace FileTree

variable {t : FileTree} {p : Path} {ε α : Type} {parse : String → Except ε α}

/-- A file that is there and whose octets are no UTF-8. -/
def Garbled (t : FileTree) (p : Path) : Prop :=
  ∃ content, t.read p = .ok content ∧ Utf8.decode? content = none

/-- What breaks the reading of a text off: octets that are none, or a path that no file can have. -/
def BreaksReading (t : FileTree) (p : Path) : Prop := t.Garbled p ∨ p.hasNul = true

theorem readText_eq_notUtf8 : t.readText p = .error .notUtf8 ↔ t.Garbled p := by
  unfold readText Garbled
  cases hread : t.read p with
  | error e => simp
  | ok content => cases hdecode : Utf8.decode? content <;> simp [hdecode]

theorem find_eq_nul : t.find p = .error .nul ↔ p.hasNul = true := by
  unfold find
  cases hlocate : t.locate p with
  | error problem =>
    cases hnul : p.hasNul with
    | true =>
      rw [locate_of_hasNul hnul] at hlocate
      cases hlocate
      simp [bind, Except.bind]
    | false =>
      have hproblem : problem ≠ .nul := by
        rintro rfl
        exact locate_ne_nul hnul hlocate
      simpa [bind, Except.bind] using hproblem
  | ok l =>
    cases hl : t.node? l <;>
      simp [bind, Except.bind, pure, Except.pure, throw, throwThe, MonadExceptOf.throw, hl,
        hasNul_of_locate hlocate]

theorem readText_eq_nul :
    (∃ e, t.readText p = .error (.refused e) ∧ e.problem = .nul) ↔ p.hasNul = true := by
  rw [← find_eq_nul]
  unfold readText read
  cases hfind : t.find p with
  | error problem => simp
  | ok n =>
    cases n with
    | directory => simp
    | file content =>
      dsimp only
      cases Utf8.decode? content <;> simp

theorem load_eq_error {e : LoadError ε} :
    t.load p parse = .error e ↔
      (∃ reason, t.readText p = .error reason ∧ e = .unread reason) ∨
      (∃ text error, t.readText p = .ok text ∧ parse text = .error error ∧ e = .invalid error) := by
  unfold load
  cases htext : t.readText p with
  | error reason => simp [eq_comm]
  | ok text => cases hparse : parse text <;> simp [hparse, Except.mapError, eq_comm]

end FileTree

/-- A request is loaded, or refused in words, unless the reading of its file is broken off. -/
theorem Request.loadMessage?_eq_none {t : FileTree} {p : Path} :
    (∃ e, Request.load t p = .error e ∧ Request.loadMessage? p e = none) ↔ t.BreaksReading p := by
  rw [FileTree.BreaksReading, ← FileTree.readText_eq_notUtf8, ← FileTree.readText_eq_nul]
  constructor
  · rintro ⟨e, hload, hnone⟩
    rcases FileTree.load_eq_error.mp hload with ⟨reason, htext, rfl⟩ | ⟨text, error, -, -, rfl⟩
    · cases reason with
      | refused error =>
        rw [Request.loadMessage?] at hnone
        split at hnone
        · cases hnone
        · exact .inr ⟨error, htext, FileError.message?_eq_none.mp (by simpa using hnone)⟩
      | notUtf8 => exact .inl htext
    · cases hnone
  · rintro (htext | ⟨error, htext, hnul⟩)
    · exact ⟨_, FileTree.load_eq_error.mpr (.inl ⟨_, htext, rfl⟩), rfl⟩
    · refine ⟨_, FileTree.load_eq_error.mpr (.inl ⟨_, htext, rfl⟩), ?_⟩
      rw [Request.loadMessage?, hnul, FileError.message?_eq_none.mpr hnul]
      rfl

/-- A configuration that breaks the loader of YAML texts off. -/
def Config.Unreadable [Platform] (t : FileTree) (p : Path) : Prop :=
  ∃ text cause, t.readText p = .ok text ∧ Platform.loadYaml text = .error (.brokenOff cause)

/-- A configuration is loaded, or refused in words, unless the reading of its file is broken off or
the loader is. -/
theorem Config.loadMessage?_eq_none [Platform] {t : FileTree} {p : Path} :
    (∃ e, Config.load t p = .error e ∧ Config.loadMessage? p e = none) ↔
      t.BreaksReading p ∨ Config.Unreadable t p := by
  rw [FileTree.BreaksReading, ← FileTree.readText_eq_notUtf8, ← FileTree.readText_eq_nul]
  constructor
  · rintro ⟨e, hload, hnone⟩
    rcases FileTree.load_eq_error.mp hload with
      ⟨reason, htext, rfl⟩ | ⟨text, error, htext, hparse, rfl⟩
    · cases reason with
      | refused error =>
        rw [Config.loadMessage?] at hnone
        split at hnone
        · cases hnone
        · have hnul := FileError.message?_eq_none.mp (by simpa using hnone)
          exact .inl (.inr ⟨error, htext, hnul⟩)
      | notUtf8 => exact .inl (.inl htext)
    · obtain ⟨cause, rfl⟩ := Config.ParseError.message?_eq_none.mp hnone
      exact .inr ⟨text, cause, htext, Config.parse_eq_unreadable.mp hparse⟩
  · rintro ((htext | ⟨error, htext, hnul⟩) | ⟨text, cause, htext, hread⟩)
    · exact ⟨_, FileTree.load_eq_error.mpr (.inl ⟨_, htext, rfl⟩), rfl⟩
    · refine ⟨_, FileTree.load_eq_error.mpr (.inl ⟨_, htext, rfl⟩), ?_⟩
      rw [Config.loadMessage?, hnul, FileError.message?_eq_none.mpr hnul]
      rfl
    · refine ⟨_, FileTree.load_eq_error.mpr
        (.inr ⟨_, _, htext, Config.parse_eq_unreadable.mpr hread, rfl⟩), ?_⟩
      rfl

namespace Command

/-- What breaks the loading of a job off: a request whose reading is broken off, or beside one that
is loaded a configuration whose reading or loading is. -/
def BreaksOff [Platform] (t : FileTree) (request : Path) (options : Options) : Prop :=
  t.BreaksReading request ∨ ∃ r path, Request.load t request = .ok r ∧
    Job.configPath? t request options = some path ∧
    (t.BreaksReading path ∨ Config.Unreadable t path)

/-- The request and the options of an invocation that is not for help. -/
def Invocation.task? : Invocation → Option (Path × Options)
  | .help _ => none
  | .convert _ request options _ _ => some (Path.ofString request, options)
  | .check _ request options => some (Path.ofString request, options)

/-- What breaks an invocation off once its job is loaded: props that nothing keeps from being saved
but a path that no file can have, or a warning as output that there are no octets for. -/
def Invocation.Stumbles [Platform] (t : FileTree) (job : Job) : Invocation → Prop
  | .help _ => False
  | .convert _ _ _ output strict => (job.obstacles strict).value = [] ∧
    ∃ file t' path, nonempty? output = some file ∧
      Artifact.save t (Path.ofString file) job.convert.value = (t', .error (.refused ⟨.nul, path⟩))
  | .check .. => ∃ o ∈ job.omissions.value, hasOctets (warning o) = false

section

variable [Platform] {t : FileTree} {verbose : Bool} {request : Path} {options : Options}

theorem loadConfig_eq_error {error : Error} :
    Job.loadConfig t request options = .error error ↔
      ∃ path e, Job.configPath? t request options = some path ∧ Config.load t path = .error e ∧
        error = .config path e := by
  unfold Job.loadConfig
  cases Job.configPath? t request options with
  | none => simp
  | some path => cases hload : Config.load t path <;> simp [hload, Except.mapError, eq_comm]

theorem load_eq_error {error : Error} :
    Job.load t request options = .error error ↔
      (∃ e, Request.load t request = .error e ∧ error = .request request e) ∨
      (∃ r, Request.load t request = .ok r ∧ Job.loadConfig t request options = .error error) := by
  unfold Job.load
  cases hrequest : Request.load t request with
  | error e => simp [Except.mapError, bind, Except.bind, eq_comm]
  | ok r =>
    cases hconfig : Job.loadConfig t request options <;>
      simp [Except.mapError, bind, Except.bind, pure, Except.pure]

/-- Loading fails without words exactly if something breaks it off. -/
theorem load_message?_eq_none :
    (∃ error, Job.load t request options = .error error ∧ error.message? = none) ↔
      BreaksOff t request options := by
  constructor
  · rintro ⟨error, hload, hnone⟩
    rcases load_eq_error.mp hload with ⟨e, hrequest, rfl⟩ | ⟨r, hrequest, hconfig⟩
    · exact .inl (Request.loadMessage?_eq_none.mp ⟨e, hrequest, hnone⟩)
    · obtain ⟨path, e, hpath, hfails, rfl⟩ := loadConfig_eq_error.mp hconfig
      have hbreaks := Config.loadMessage?_eq_none.mp ⟨e, hfails, hnone⟩
      exact .inr ⟨r, path, hrequest, hpath, hbreaks⟩
  · rintro (hgarbled | ⟨r, path, hrequest, hpath, hbreaks⟩)
    · obtain ⟨e, hrequest, hnone⟩ := Request.loadMessage?_eq_none.mpr hgarbled
      exact ⟨_, load_eq_error.mpr (.inl ⟨e, hrequest, rfl⟩), hnone⟩
    · obtain ⟨e, hconfig, hnone⟩ := Config.loadMessage?_eq_none.mpr hbreaks
      have hfail := loadConfig_eq_error.mpr ⟨path, e, hpath, hconfig, rfl⟩
      exact ⟨_, load_eq_error.mpr (.inr ⟨r, hrequest, hfail⟩), hnone⟩

/-- Props within the limits of the platform are delivered unless their file is refused. -/
theorem deliver_code_eq_none {props : List Assignment} {output : Option String}
    {messages : List Notice} {text : String}
    (hroom : Artifact.serializeWithin Platform.limits props = .ok text) :
    (deliver t props output messages).2.code? = none ↔
      ∃ file t' path, nonempty? output = some file ∧
        Artifact.save t (Path.ofString file) props = (t', .error (.refused ⟨.nul, path⟩)) := by
  cases houtput : nonempty? output with
  | none =>
    rw [deliver_printed houtput hroom, Outcome.code?_finished rfl]
    simp
  | some file =>
    rcases hsave : Artifact.save t (Path.ofString file) props with ⟨t', error | written⟩
    · rw [deliver_of_refusal houtput hsave, Outcome.code?_ofError]
      cases error with
      | refused error =>
        obtain ⟨problem, path⟩ := error
        have hnone : (Error.output (Path.ofString file) ⟨problem, path⟩).message? = none ↔
            problem = .nul := by
          rw [Error.message?, Option.map_eq_none_iff, FileError.message?_eq_none]
        rw [Error.ofSave, Option.map_eq_none_iff, hnone]
        constructor
        · rintro rfl
          exact ⟨file, t', path, rfl, hsave⟩
        · rintro ⟨file', t'', path', hfile, hsave'⟩
          cases hfile
          cases hsave.symm.trans hsave'
          rfl
      | overrun overrun => exact absurd hsave (Artifact.save_ne_overrun hroom)
    · rw [deliver_of_save houtput hsave, Outcome.code?_finished rfl]
      constructor
      · rintro ⟨⟩
      · rintro ⟨file', t'', path', hfile, hsave'⟩
        cases hfile
        cases hsave.symm.trans hsave'

/-- Once its job is loaded, an invocation is broken off exactly if it stumbles. -/
theorem code?_run_of_loaded {invocation : Invocation} {job : Job}
    (htask : invocation.task? = some (request, options))
    (hload : Job.load t request options = .ok job) :
    (invocation.run t).2.code? = none ↔ invocation.Stumbles t job := by
  cases invocation with
  | help topic => cases htask
  | convert verbose path options' output strict =>
    cases htask
    by_cases hfree : (job.obstacles strict).value = []
    · simp only [Invocation.run, runConvert_of_free hload hfree, Invocation.Stumbles, hfree,
        true_and]
      exact deliver_code_eq_none (serializeWithin_of_load hload)
    · simp only [Invocation.run, runConvert_of_obstacles hload hfree, Invocation.Stumbles, hfree,
        false_and, iff_false]
      rintro ⟨⟩
  | check verbose path options' =>
    cases htask
    by_cases hnil : job.omissions.value = []
    · simp only [Invocation.run, runCheck_of_complete hload hnil, Invocation.Stumbles, hnil,
        Outcome.code?_finished (n := .noOmissions) rfl]
      simp
    · have hcode := (finished_warnings job.omissions.value (skipped verbose job.omissions)).1
      simp only [Invocation.run, runCheck_of_omissions hload hnil, hcode, Invocation.Stumbles]
      simp

/-- An error of loading is all that an invocation ends with. -/
theorem run_of_load_error {invocation : Invocation} {error : Error}
    (htask : invocation.task? = some (request, options))
    (hload : Job.load t request options = .error error) :
    invocation.run t = (t, .ofError [] error) := by
  cases invocation with
  | help topic => cases htask
  | convert verbose path options' output strict =>
    cases htask
    exact runConvert_of_error hload
  | check verbose path options' =>
    cases htask
    exact congrArg (Prod.mk t) (runCheck_of_error hload)

theorem deliver_ends (t : FileTree) (props : List Assignment) (output : Option String)
    (messages : List Notice) :
    (∃ n, (deliver t props output messages).2 = .finished 0 [n] messages) ∨
      ∃ error, (deliver t props output messages).2 = .ofError messages error := by
  cases houtput : nonempty? output with
  | none =>
    cases hroom : Artifact.serializeWithin Platform.limits props with
    | ok text =>
      rw [deliver_printed houtput hroom]
      exact .inl ⟨_, rfl⟩
    | error overrun =>
      simp only [deliver, houtput, hroom]
      exact .inr ⟨_, rfl⟩
  | some file =>
    rcases hsave : Artifact.save t (Path.ofString file) props with ⟨t', error | written⟩
    · rw [deliver_of_refusal houtput hsave]
      exact .inr ⟨_, rfl⟩
    · rw [deliver_of_save houtput hsave]
      exact .inl ⟨_, rfl⟩

/-- An invocation that is not broken off ends with one of two exit codes. -/
theorem code?_run {invocation : Invocation} {code : Nat}
    (htask : invocation.task? = some (request, options))
    (hcode : (invocation.run t).2.code? = some code) : code = 0 ∨ code = 1 := by
  have hfinished {c : Nat} {output messages : List Notice}
      (h : (Outcome.finished c output messages).code? = some code) : code = c := by
    rw [Outcome.code?, Option.ite_none_right_eq_some] at h
    exact (Option.some.inj h.2).symm
  have herror {messages : List Notice} {error : Error}
      (h : (Outcome.ofError messages error).code? = some code) : code = 1 := by
    rw [Outcome.code?_ofError, Option.map_eq_some_iff] at h
    obtain ⟨-, -, rfl⟩ := h
    rfl
  cases hload : Job.load t request options with
  | error error =>
    rw [run_of_load_error htask hload] at hcode
    exact .inr (herror hcode)
  | ok job =>
    cases invocation with
    | help topic => cases htask
    | convert verbose path options' output strict =>
      cases htask
      by_cases hfree : (job.obstacles strict).value = []
      · rw [Invocation.run, runConvert_of_free hload hfree] at hcode
        rcases deliver_ends t job.convert.value output
          (skipped verbose (job.obstacles strict) ++ skipped verbose job.convert)
          with ⟨n, hend⟩ | ⟨error, hend⟩
        · exact .inl (hfinished (hend ▸ hcode))
        · exact .inr (herror (hend ▸ hcode))
      · rw [Invocation.run, runConvert_of_obstacles hload hfree] at hcode
        exact .inr (hfinished hcode)
    | check verbose path options' =>
      cases htask
      by_cases hnil : job.omissions.value = []
      · rw [Invocation.run, runCheck_of_complete hload hnil] at hcode
        exact .inl (hfinished hcode)
      · rw [Invocation.run, runCheck_of_omissions hload hnil] at hcode
        exact .inr (hfinished hcode)

/-- An invocation is broken off by what breaks the loading of its job off, or stumbles after that;
nothing else breaks it off. -/
theorem code?_run_eq_none {invocation : Invocation}
    (htask : invocation.task? = some (request, options)) :
    (invocation.run t).2.code? = none ↔ BreaksOff t request options ∨
      ∃ job, Job.load t request options = .ok job ∧ invocation.Stumbles t job := by
  rw [← load_message?_eq_none]
  cases hload : Job.load t request options with
  | ok job =>
    rw [code?_run_of_loaded htask hload]
    simp
  | error error =>
    rw [run_of_load_error htask hload, Outcome.code?_ofError]
    simp

/-- An error of loading that does not break an invocation off is the one thing that it prints. -/
theorem run_of_contained_error {invocation : Invocation} {error : Error}
    (htask : invocation.task? = some (request, options))
    (hcontained : ¬BreaksOff t request options)
    (hload : Job.load t request options = .error error) :
    ∃ message, error.message? = some message ∧ (invocation.run t).1 = t ∧
      (invocation.run t).2.code? = some 1 ∧ (invocation.run t).2.outputText = "" ∧
      (invocation.run t).2.messageText = lines ["Error: " ++ message] := by
  cases hmessage : error.message? with
  | none => exact absurd (load_message?_eq_none.mp ⟨error, hload, hmessage⟩) hcontained
  | some message =>
    rw [run_of_load_error htask hload]
    refine ⟨message, rfl, rfl, ?_, Outcome.outputText_ofError _ _, ?_⟩
    · rw [Outcome.code?_ofError, hmessage]
      rfl
    · rw [Outcome.messageText_ofError hmessage, printed_nil, String.empty_append]

/-- Failures of a command are contained, but for a few that break it off: a request or a
configuration that is no UTF-8, a configuration that breaks the loader of YAML texts off, a path
that no file can have, and a warning as output that there are no octets for. Those, and nothing
else, leave it without an exit code; any other invocation ends with 0 or 1. If the request or the
configuration is not loaded, it prints a single error and no output, exits with 1 and changes no
file. Requests and configurations by themselves are refused in words but for the same reasons. -/
theorem failures_are_contained (t : FileTree) (arguments : List String) (invocation : Invocation)
    (request : Path) (options : Options)
    (harguments : Invocation.ofArguments arguments = .ok invocation)
    (htask : invocation.task? = some (request, options)) :
    let outcome := (run t arguments).2
    (outcome.code? = none ↔ BreaksOff t request options ∨
      ∃ job, Job.load t request options = .ok job ∧ invocation.Stumbles t job) ∧
    (∀ code, outcome.code? = some code → code = 0 ∨ code = 1) ∧
    (∀ error, ¬BreaksOff t request options → Job.load t request options = .error error →
      ∃ message, error.message? = some message ∧ (run t arguments).1 = t ∧
        outcome.code? = some 1 ∧ outcome.outputText = "" ∧
        outcome.messageText = lines ["Error: " ++ message]) ∧
    (∀ p, (∃ e, Request.load t p = .error e ∧ Request.loadMessage? p e = none) ↔
      t.BreaksReading p) ∧
    (∀ p, (∃ e, Config.load t p = .error e ∧ Config.loadMessage? p e = none) ↔
      t.BreaksReading p ∨ Config.Unreadable t p) := by
  have hrun : run t arguments = invocation.run t := by simp [run, harguments]
  rw [hrun]
  exact ⟨code?_run_eq_none htask, fun code hcode => code?_run htask hcode,
    fun error hcontained hload => run_of_contained_error htask hcontained hload,
    fun _ => Request.loadMessage?_eq_none, fun _ => Config.loadMessage?_eq_none⟩

end

/-- A request for nothing with a directory in the place of the configuration. -/
def requestBesideDirectory : FileTree :=
  ⟨.root, (⟨[Config.fileName]⟩, .directory) :: requestAlone.nodes⟩

/-- A directory in the place of the configuration is an error in words. -/
theorem directory_for_configuration_is_contained :
    ¬@BreaksOff .standard requestBesideDirectory (Path.ofString "r.json") {} ∧
      (@run .standard requestBesideDirectory ["check", "r.json"]).2.code? = some 1 ∧
      (@run .standard requestBesideDirectory ["check", "r.json"]).2.messageText = lines
        ["Error: Cannot read config file: [Errno 21] Is a directory: '.proptypegen.yaml'"] := by
  have h := @failures_are_contained .standard requestBesideDirectory ["check", "r.json"]
    (.check false "r.json" {}) (Path.ofString "r.json") {} rfl rfl
  have hrequest : Request.load requestBesideDirectory (Path.ofString "r.json") =
      .ok ⟨[], [], none⟩ := load_emptyRequest rfl
  have hconfig : @Job.loadConfig .standard requestBesideDirectory (Path.ofString "r.json") {} =
      .error (.config ⟨false, [Config.fileName]⟩
        (.unread (.refused ⟨.isDirectory, ⟨false, [Config.fileName]⟩⟩))) := rfl
  have hload := (@load_eq_error .standard _ _ _ _).mpr (.inr ⟨_, hrequest, hconfig⟩)
  have hcontained : ¬@BreaksOff .standard requestBesideDirectory (Path.ofString "r.json") {} := by
    intro hbreaks
    obtain ⟨error, hload', hnone⟩ := (@load_message?_eq_none .standard _ _ _).mpr hbreaks
    cases hload.symm.trans hload'
    cases hnone
  obtain ⟨message, hmessage, -, hcode, -, htext⟩ := h.2.2.1 _ hcontained hload
  cases hmessage
  exact ⟨hcontained, hcode, htext⟩

/-- A request of an octet that is no UTF-8 breaks both commands off: there is no exit code. -/
theorem octet_of_no_text_breaks_off :
    let t : FileTree := ⟨.root, [(⟨["r.json"]⟩, .file [0xFF])]⟩
    (@run .standard t ["convert", "r.json"]).2.code? = none ∧
      (@run .standard t ["check", "r.json"]).2.code? = none :=
  ⟨rfl, rfl⟩

end Command

end PropValidators
