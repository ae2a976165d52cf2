import PropValidators.Proofs.Command.Atomicity
/-!
Running a conversion again: what it has written is not among the files that it reads, so that it
reads and writes the same, and then there is nothing left to change.
-/
namespace PropValidators

namespace FileTree

variable {t t' : FileTree} {l : Location} {p q : Path} {content : List UInt8} {ε α : Type}
  {parse : String → Except ε α}

/-- What is not on the way to a place is found as before when a file is written there. -/
theorem find_of_write (h : t.write p content = (t', .ok ())) (hdirect : p.isDirect = true)
    (hlocate : t.locate q = .ok l) (hway : ¬l.OnWayTo (t.place p)) :
    t'.find q = t.find q := by
  have hextends : Extends t t' [t.place p] := extends_write hdirect h
  have hnode : t'.node? l = t.node? l := (written hdirect h).elsewhere l hway
  simp only [find, hextends.locate hlocate, hlocate, bind, Except.bind, hnode]

theorem load_of_find (h : t'.find p = t.find p) : t'.load p parse = t.load p parse := by
  rw [load, load, readText, readText, read, read, h]

theorem exists_file_of_load {a : α} (h : t.load p parse = .ok a) :
    ∃ l content, t.locate p = .ok l ∧ t.node? l = some (.file content) := by
  unfold load at h
  cases htext : t.readText p with
  | error reason =>
    rw [htext] at h
    cases h
  | ok text =>
    unfold readText at htext
    cases hread : t.read p with
    | error e =>
      rw [hread] at htext
      cases htext
    | ok content =>
      obtain ⟨l, hlocate, hl⟩ := read_eq_ok.mp hread
      exact ⟨l, content, hlocate, hl⟩

/-- A content that is there already is written without a change. -/
theorem write_of_read (h : t.read p = .ok content) : t.write p content = (t, .ok ()) := by
  obtain ⟨l, hlocate, hl⟩ := read_eq_ok.mp h
  have hput : t.put l (.file content) = t := by
    have hdirectory : t.node? l ≠ some .directory := by simp [hl]
    rw [node?_of_not_onWayTo (not_onWayTo hdirectory)] at hl
    rw [put, Keyed.put_of_lookup hl]
  have hmade : t.ensureDirectories p.parent = (t, .ok ()) := by
    cases p using Path.childRec with
    | start absolute => exact ensureDirectories_start t absolute
    | child p name =>
      rw [Path.parent_child]
      exact ensureDirectories_of_isDirectory (isDirectory_of_locate_child hlocate)
  simp only [write, hmade, replace, hlocate, hl, hput]

end FileTree

namespace Command

/-- The path that a configuration is looked for at: the one that options name, else the one beside
the request. -/
def configPath (request : Path) (options : Options) : Path :=
  ((nonempty? options.config).map Path.ofString).getD (request.parent.child Config.fileName)

section

variable [Platform] {t t' : FileTree} {verbose : Bool} {request : Path} {options : Options}

theorem loadConfig_of_find
    (h : t'.find (configPath request options) = t.find (configPath request options)) :
    Job.loadConfig t' request options = Job.loadConfig t request options := by
  have hload : Config.load t' (configPath request options) =
      Config.load t (configPath request options) := FileTree.load_of_find h
  unfold Job.loadConfig Job.configPath?
  unfold configPath at h hload
  cases hconfig : nonempty? options.config with
  | some file =>
    simp only [hconfig, Option.map_some, Option.getD_some] at hload
    simp only [hload]
  | none =>
    simp only [hconfig, Option.map_none, Option.getD_none] at h hload
    have hcontains : t'.contains (request.parent.child Config.fileName) =
        t.contains (request.parent.child Config.fileName) := by
      rw [FileTree.contains, FileTree.contains, h]
    simp only [hcontains]
    cases t.contains (request.parent.child Config.fileName) with
    | false => rfl
    | true => simp only [↓reduceIte, hload]

/-- Where a request is loaded and a configuration too, if one is in force, there is a place for the
configuration. -/
theorem locate_configPath {r : Request} {config : Config}
    (hrequest : Request.load t request = .ok r)
    (hconfig : Job.loadConfig t request options = .ok config) :
    ∃ l, t.locate (configPath request options) = .ok l := by
  unfold configPath
  cases hfile : nonempty? options.config with
  | some file =>
    obtain ⟨hoption, hne⟩ := nonempty?_eq_some.mp hfile
    have hload := (configInForce_iff.mpr hconfig).named file hoption hne
    obtain ⟨l, content, hlocate, -⟩ := FileTree.exists_file_of_load hload
    exact ⟨l, hlocate⟩
  | none =>
    obtain ⟨l, content, hlocate, hl⟩ := FileTree.exists_file_of_load hrequest
    cases request using Path.childRec with
    | start absolute =>
      cases hlocate
      rw [FileTree.node?_of_onWayTo_start (Location.onWayTo_self _)] at hl
      cases hl
    | child p name =>
      obtain ⟨-, d, hp, hstep⟩ := FileTree.locate_child_eq_ok.mp hlocate
      obtain ⟨hd, -⟩ := FileTree.step_eq_ok.mp hstep
      refine ⟨d.child Config.fileName, ?_⟩
      show t.locate ((p.child name).parent.child Config.fileName) = _
      rw [Path.parent_child]
      exact FileTree.locate_child_eq_ok.mpr ⟨by decide, d, hp, FileTree.step_eq_ok.mpr ⟨hd, rfl⟩⟩

/-- A job is loaded as before once a file has been written that is neither its request nor the file
or directory that a configuration is looked for at, nor below that. -/
theorem load_of_write {job : Job} {p : Path} {content : List UInt8}
    (hwrite : t.write p content = (t', .ok ())) (hdirect : p.isDirect = true)
    (hrequest : t.locate request ≠ .ok (t.place p))
    (hconfig : ∀ l, t.locate (configPath request options) = .ok l → ¬l.OnWayTo (t.place p))
    (hload : Job.load t request options = .ok job) : Job.load t' request options = .ok job := by
  obtain ⟨r, config, hr, hc, hjob⟩ := load_eq_ok.mp hload
  apply load_eq_ok.mpr
  refine ⟨r, config, ?_, ?_, hjob⟩
  · obtain ⟨l, text, hlocate, hl⟩ := FileTree.exists_file_of_load hr
    have hway : ¬l.OnWayTo (t.place p) := by
      intro hway
      by_cases hplace : l = t.place p
      · exact hrequest (hplace ▸ hlocate)
      · -- The request is a file, and no file is written below one.
        exact (FileTree.free_of_write hwrite hdirect).2 l text hway hplace hl
    have hfind := FileTree.find_of_write hwrite hdirect hlocate hway
    unfold Request.load at hr ⊢
    rw [FileTree.load_of_find hfind]
    exact hr
  · obtain ⟨l, hlocate⟩ := locate_configPath hr hc
    rw [loadConfig_of_find (FileTree.find_of_write hwrite hdirect hlocate (hconfig l hlocate))]
    exact hc

/-- Props that have been saved are saved again without a change. -/
theorem save_of_save {p : Path} {props : List Assignment}
    (h : Artifact.save t p props = (t', .ok ())) : Artifact.save t' p props = (t', .ok ()) :=
  Artifact.save_eq_ok.mpr
    ⟨(Artifact.save_eq_ok.mp h).1, FileTree.write_of_read (Artifact.read_save h)⟩

/-- What a conversion does that comes after one that has written its file. -/
theorem runConvert_again {file : String} {strict : Bool} (hfile : file ≠ "")
    (hdirect : (Path.ofString file).isDirect = true)
    (hrequest : t.locate request ≠ .ok (t.place (Path.ofString file)))
    (hconfig : ∀ l, t.locate (configPath request options) = .ok l →
      ¬l.OnWayTo (t.place (Path.ofString file)))
    (hcode : (runConvert t verbose request options (some file) strict).2.code? = some 0) :
    ∃ after props messages,
      runConvert t verbose request options (some file) strict =
        (after, .finished 0 [.written props.length (Path.ofString file)] messages) ∧
      runConvert after verbose request options (some file) strict =
        (after, .finished 0 [.written props.length (Path.ofString file)] messages) ∧
      runConvert after verbose request options none strict =
        (after, .finished 0 [.converted (Artifact.serialize props)] messages) ∧
      after.read (Path.ofString file) = .ok (Utf8.encode (Artifact.serialize props).toList) := by
  have houtput : nonempty? (some file) = some file := nonempty?_eq_some.mpr ⟨rfl, hfile⟩
  obtain ⟨job, hload, hfree⟩ := exists_job_of_code_zero hcode
  rw [runConvert_of_free hload hfree] at hcode
  obtain ⟨after, hsave, hdeliver⟩ := deliver_written houtput hcode
  have hagain : Job.load after request options = .ok job :=
    load_of_write (Artifact.save_eq_ok.mp hsave).2 hdirect hrequest hconfig hload
  let messages := skipped verbose (job.obstacles strict) ++ skipped verbose job.convert
  refine ⟨after, job.convert.value, messages, ?_, ?_, ?_, Artifact.read_save hsave⟩
  · rw [runConvert_of_free hload hfree, hdeliver]
  · rw [runConvert_of_free hagain hfree]
    exact deliver_of_save houtput (save_of_save hsave)
  · rw [runConvert_of_free hagain hfree]
    exact deliver_printed rfl (serializeWithin_of_load hagain)

/-- A conversion that has written its file can be run again: it exits with 0 as before, prints the
same, and changes nothing. Without a file to write to it prints what the file has, and a line break.
The file must not be the request, nor what is read as a configuration, were there one, nor stand
below that; and no name of its path may be two dots. -/
theorem rerunning_changes_nothing (t : FileTree) (verbose : Bool) (request : String)
    (options : Options) (file : String) (strict : Bool) (hfile : file ≠ "")
    (hdirect : (Path.ofString file).isDirect = true)
    (hrequest : t.locate (Path.ofString request) ≠ .ok (t.place (Path.ofString file)))
    (hconfig : ∀ l, t.locate (configPath (Path.ofString request) options) = .ok l →
      ¬l.OnWayTo (t.place (Path.ofString file)))
    (hcode : ((Invocation.convert verbose request options (some file) strict).run t).2.code? =
      some 0) :
    let run (output : Option String) (t : FileTree) :=
      (Invocation.convert verbose request options output strict).run t
    let first := run (some file) t
    run (some file) first.1 = first ∧
      ∃ text, first.1.read (Path.ofString file) = .ok (Utf8.encode text.toList) ∧
        (run none first.1).1 = first.1 ∧ (run none first.1).2.code? = some 0 ∧
        (run none first.1).2.outputText = text ++ "\n" ∧
        (run none first.1).2.messageText = first.2.messageText := by
  intro run first
  obtain ⟨after, props, messages, hfirst, hsecond, hprinted, hread⟩ :=
    runConvert_again hfile hdirect hrequest hconfig hcode
  have hfirst' : first = _ := hfirst
  have hprinted' : run none after = _ := hprinted
  rw [hfirst', hprinted']
  exact ⟨hsecond, Artifact.serialize props, hread, rfl, Outcome.code?_finished rfl,
    (Outcome.outputText_finished rfl).trans (lines_singleton _), rfl⟩

end

/-- Props are written beside a request for none, into a directory that is made for them. -/
theorem second_conversion_changes_nothing :
    ∃ after outcome,
      @Invocation.run .standard requestAlone
        (.convert false "r.json" {} (some "out/p.json") false) = (after, outcome) ∧
      outcome.code? = some 0 ∧
      @Invocation.run .standard after
        (.convert false "r.json" {} (some "out/p.json") false) = (after, outcome) := by
  have hcode : (@Invocation.run .standard requestAlone
      (.convert false "r.json" {} (some "out/p.json") false)).2.code? = some 0 := by
    decide +kernel
  have hconfig : ∀ l, requestAlone.locate (configPath (Path.ofString "r.json") {}) = .ok l →
      ¬l.OnWayTo (requestAlone.place (Path.ofString "out/p.json")) := by
    intro l hl
    cases hl
    decide
  obtain ⟨hagain, -⟩ := @rerunning_changes_nothing .standard requestAlone false "r.json" {}
    "out/p.json" false (by decide) (by decide) (by decide) hconfig hcode
  exact ⟨_, _, rfl, hcode, hagain⟩

end Command

end PropValidators
