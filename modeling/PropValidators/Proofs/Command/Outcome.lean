import PropValidators.Command.Outcome
import PropValidators.Proofs.Artifact.Room
import PropValidators.Proofs.Text.Basic
/-!
How commands end: what is printed of their notices, the jobs that they load, and one equation for
each way that a run can take.
-/
namespace PropValidators

/-- A request that is loaded from a file is read from the text of the file. -/
theorem Request.parse_of_load {t : FileTree} {p : Path} {r : Request}
    (h : Request.load t p = .ok r) : ∃ text, Request.parse text = .valid r := by
  unfold Request.load FileTree.load at h
  split at h
  · cases h
  · next text _ =>
    refine ⟨text, ?_⟩
    dsimp only at h
    cases hparse : Request.parse text with
    | valid r' =>
      rw [hparse] at h
      cases h
      rfl
    | faulty first others =>
      rw [hparse] at h
      cases h

namespace Command

/-! ### Notices -/

@[simp] theorem printed_nil : printed [] = "" := rfl

theorem printed_cons (n : Notice) (ns : List Notice) :
    printed (n :: ns) = n.text.escaped ++ printed ns := String.join_cons

@[simp] theorem printed_append (xs ys : List Notice) :
    printed (xs ++ ys) = printed xs ++ printed ys := by
  simp [printed]

@[simp] theorem lines_append (xs ys : List String) : lines (xs ++ ys) = lines xs ++ lines ys := by
  simp [lines]

theorem lines_singleton (line : String) : lines [line] = line ++ "\n" := by simp [lines]

theorem printed_singleton {n : Notice} {s : String} (h : n.text = Text.ofString s) :
    printed [n] = s := by
  rw [printed_cons, h, Text.escaped_ofString, printed_nil, String.append_empty]

theorem printed_map {α : Type} (xs : List α) (notice : α → Notice) (line : α → Text)
    (h : ∀ x, (notice x).text = line x ++ "\n") :
    printed (xs.map notice) = lines (xs.map fun x => (line x).escaped) := by
  induction xs with
  | nil => rfl
  | cons x xs ih =>
    have hlines (ls : List String) : lines ((line x).escaped :: ls) =
        (line x).escaped ++ "\n" ++ lines ls := by
      rw [← lines_singleton, ← lines_append, List.singleton_append]
    rw [List.map_cons, List.map_cons, printed_cons, hlines, ih, h, Text.escaped_append,
      Text.escaped_ofString]

theorem isPrintable_of_text {n : Notice} {s : String} (h : n.text = Text.ofString s) :
    n.isPrintable = true := by
  rw [Notice.isPrintable, h, Text.toChars?_ofString]
  rfl

/-- The line of a warning about an omission. -/
def warning (o : Omission) : Text := "Warning: " ++ o.message

/-- Whether there are octets for a line. -/
def hasOctets (line : Text) : Bool := line.toChars?.isSome

theorem isPrintable_omitted (o : Omission) :
    (Notice.omitted o).isPrintable = hasOctets (warning o) := by
  have htext : (Notice.omitted o).text = warning o ++ "\n" := rfl
  rw [Notice.isPrintable, htext, Text.isSome_toChars?_append, Text.toChars?_ofString,
    Option.isSome_some, Bool.and_true, hasOctets]

theorem printed_omitted (omissions : List Omission) :
    printed (omissions.map .omitted) = lines ((omissions.map warning).map Text.escaped) := by
  rw [List.map_map]
  exact printed_map omissions _ warning fun _ => rfl

/-- The lines of the records of what was skipped, if they are asked for. -/
def recordLines {α : Type} (verbose : Bool) (x : Traced α) : List Text :=
  if verbose then x.skips.map Skip.record else []

theorem printed_skipped {α : Type} (verbose : Bool) (x : Traced α) :
    printed (skipped verbose x) = lines ((recordLines verbose x).map Text.escaped) := by
  cases verbose with
  | false => rfl
  | true =>
    show printed (x.skips.map .skipped) = lines ((x.skips.map Skip.record).map Text.escaped)
    rw [List.map_map]
    exact printed_map x.skips _ Skip.record fun _ => rfl

/-! ### Outcomes -/

namespace Outcome

variable {code : Nat} {n : Notice} {messages : List Notice} {error : Error} {s : String}

/-- A single notice of characters is printed, and the command ends. -/
theorem code?_finished (h : n.text = Text.ofString s) :
    (finished code [n] messages).code? = some code := by
  simp [code?, isPrintable_of_text h]

theorem outputText_finished (h : n.text = Text.ofString s) :
    (finished code [n] messages).outputText = s := by
  rw [outputText, List.takeWhile_cons, isPrintable_of_text h]
  exact printed_singleton h

@[simp] theorem outputText_ofError (messages : List Notice) (error : Error) :
    (ofError messages error).outputText = "" := by
  unfold ofError
  split <;> rfl

theorem code?_ofError (messages : List Notice) (error : Error) :
    (ofError messages error).code? = error.message?.map fun _ => 1 := by
  unfold ofError
  cases error.message? <;> rfl

theorem code?_ofError_ne (messages : List Notice) (error : Error) :
    (ofError messages error).code? ≠ some 0 := by
  rw [code?_ofError]
  cases error.message? <;> simp

/-- An error with words is printed behind the messages. -/
theorem messageText_ofError {message : String} (h : error.message? = some message) :
    (ofError messages error).messageText = printed messages ++ lines ["Error: " ++ message] := by
  have htext : (Notice.failed error).text = Text.ofString (lines ["Error: " ++ message]) := by
    rw [Notice.text, h]
    rfl
  rw [ofError, h]
  show printed (messages ++ [.failed error]) = _
  rw [printed_append, printed_singleton htext]

end Outcome

/-! ### Jobs -/

theorem obstacles_true (job : Job) : job.obstacles true = job.omissions := by
  simp [Job.obstacles]

theorem obstacles_eq_nil {job : Job} {strict : Bool}
    (h : (job.obstacles true).value = []) : (job.obstacles strict).value = [] := by
  rw [obstacles_true] at h
  unfold Job.obstacles
  split
  · exact h
  · rfl

variable [Platform] {t : FileTree} {verbose : Bool} {request : Path} {options : Options}

theorem load_eq_ok {job : Job} :
    Job.load t request options = .ok job ↔ ∃ r config, Request.load t request = .ok r ∧
      Job.loadConfig t request options = .ok config ∧ job = Job.ofRequest options r config := by
  unfold Job.load
  cases hrequest : Request.load t request with
  | error e => simp [Except.mapError, bind, Except.bind]
  | ok r =>
    cases hconfig : Job.loadConfig t request options with
    | error e => simp [Except.mapError, bind, Except.bind]
    | ok config => simp [Except.mapError, bind, Except.bind, pure, Except.pure, eq_comm]

/-- What is converted for a job that is loaded keeps the limits of the platform. -/
theorem serializeWithin_of_load {job : Job} (hload : Job.load t request options = .ok job) :
    Artifact.serializeWithin Platform.limits job.convert.value =
      .ok (Artifact.serialize job.convert.value) := by
  obtain ⟨r, config, hrequest, -, rfl⟩ := load_eq_ok.mp hload
  obtain ⟨text, hparse⟩ := Request.parse_of_load hrequest
  exact Artifact.serializeWithin_of_parse hparse _ _

/-! ### Runs -/

theorem runConvert_of_error {error : Error} {output : Option String} {strict : Bool}
    (h : Job.load t request options = .error error) :
    runConvert t verbose request options output strict = (t, .ofError [] error) := by
  simp [runConvert, h]

theorem runCheck_of_error {error : Error} (h : Job.load t request options = .error error) :
    runCheck t verbose request options = .ofError [] error := by
  simp [runCheck, h]

theorem runConvert_of_free {job : Job} {output : Option String} {strict : Bool}
    (h : Job.load t request options = .ok job) (hfree : (job.obstacles strict).value = []) :
    runConvert t verbose request options output strict =
      deliver t job.convert.value output
        (skipped verbose (job.obstacles strict) ++ skipped verbose job.convert) := by
  simp [runConvert, h, hfree]

theorem runConvert_of_obstacles {job : Job} {output : Option String} {strict : Bool}
    (h : Job.load t request options = .ok job) (hne : (job.obstacles strict).value ≠ []) :
    runConvert t verbose request options output strict =
      (t, .finished 1 [] (skipped verbose (job.obstacles strict) ++
        (job.obstacles strict).value.map .omitted ++
          [.failed (.omissions (job.obstacles strict).value.length)])) := by
  simp [runConvert, h, hne, Outcome.ofError, Error.message?]

theorem runCheck_of_complete {job : Job} (h : Job.load t request options = .ok job)
    (hnil : job.omissions.value = []) :
    runCheck t verbose request options =
      .finished 0 [.noOmissions] (skipped verbose job.omissions) := by
  simp [runCheck, h, hnil]

theorem runCheck_of_omissions {job : Job} (h : Job.load t request options = .ok job)
    (hne : job.omissions.value ≠ []) :
    runCheck t verbose request options =
      .finished 1 (job.omissions.value.map .omitted) (skipped verbose job.omissions) := by
  simp [runCheck, h, hne]

section Delivery

variable {t' : FileTree} {props : List Assignment} {output : Option String}
  {messages : List Notice} {file text : String}

theorem deliver_printed (h : nonempty? output = none)
    (hroom : Artifact.serializeWithin Platform.limits props = .ok text) :
    deliver t props output messages = (t, .finished 0 [.converted text] messages) := by
  simp [deliver, h, hroom]

theorem deliver_of_save (h : nonempty? output = some file)
    (hsave : Artifact.save t (Path.ofString file) props = (t', .ok ())) :
    deliver t props output messages =
      (t', .finished 0 [.written props.length (Path.ofString file)] messages) := by
  simp only [deliver, h, hsave]

theorem deliver_of_refusal {error : Artifact.SaveError} (h : nonempty? output = some file)
    (hsave : Artifact.save t (Path.ofString file) props = (t', .error error)) :
    deliver t props output messages =
      (t', .ofError messages (.ofSave (Path.ofString file) error)) := by
  simp only [deliver, h, hsave]

/-- Messages are neither written nor part of the output. -/
theorem deliver_messages (props : List Assignment) (output : Option String)
    (messages messages' : List Notice) :
    (deliver t props output messages).1 = (deliver t props output messages').1 ∧
      (deliver t props output messages).2.outputText =
        (deliver t props output messages').2.outputText := by
  cases houtput : nonempty? output with
  | none =>
    simp only [deliver, houtput]
    cases Artifact.serializeWithin Platform.limits props with
    | ok text => exact ⟨rfl, rfl⟩
    | error overrun => simp
  | some file =>
    -- Writing does not look at messages, and its error becomes one of them.
    rcases hsave : Artifact.save t (Path.ofString file) props with ⟨t', error | written⟩
    · rw [deliver_of_refusal houtput hsave, deliver_of_refusal houtput hsave]
      simp
    · rw [deliver_of_save houtput hsave, deliver_of_save houtput hsave]
      exact ⟨rfl, rfl⟩

/-- Props that are delivered with exit code 0 are printed where there is no file to write to. -/
theorem deliver_zero_printed (h : nonempty? output = none)
    (hcode : (deliver t props output messages).2.code? = some 0) :
    deliver t props output messages =
      (t, .finished 0 [.converted (Artifact.serialize props)] messages) := by
  cases hroom : Artifact.serializeWithin Platform.limits props with
  | ok text =>
    obtain ⟨-, rfl⟩ := Artifact.serializeWithin_eq_ok.mp hroom
    exact deliver_printed h hroom
  | error overrun =>
    simp only [deliver, h, hroom] at hcode
    exact absurd hcode (Outcome.code?_ofError_ne _ _)

/-- Props that are delivered with exit code 0 are saved where there is a file to write to. -/
theorem deliver_written (h : nonempty? output = some file)
    (hcode : (deliver t props output messages).2.code? = some 0) :
    ∃ t', Artifact.save t (Path.ofString file) props = (t', .ok ()) ∧
      deliver t props output messages =
        (t', .finished 0 [.written props.length (Path.ofString file)] messages) := by
  rcases hsave : Artifact.save t (Path.ofString file) props with ⟨t', error | written⟩
  · rw [deliver_of_refusal h hsave] at hcode
    exact absurd hcode (Outcome.code?_ofError_ne _ _)
  · exact ⟨t', rfl, deliver_of_save h hsave⟩

end Delivery

theorem exists_job_of_code_zero {output : Option String} {strict : Bool}
    (h : (runConvert t verbose request options output strict).2.code? = some 0) :
    ∃ job, Job.load t request options = .ok job ∧ (job.obstacles strict).value = [] := by
  cases hload : Job.load t request options with
  | error error =>
    rw [runConvert_of_error hload] at h
    exact absurd h (Outcome.code?_ofError_ne [] error)
  | ok job =>
    by_cases hfree : (job.obstacles strict).value = []
    · exact ⟨job, rfl, hfree⟩
    · rw [runConvert_of_obstacles hload hfree] at h
      cases h

end Command

end PropValidators
