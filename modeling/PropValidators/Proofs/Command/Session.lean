import PropValidators.Proofs.Command.Settings
import PropValidators.Proofs.File.Extension
/-!
Sessions: operations on one file tree in a row, on the command line or not, that succeed or fail. At
the end every place that was written to, by whatever path, holds what was written there last, and
all other files are as they were.
-/
namespace PropValidators

namespace Command

/-- One operation on a file tree. -/
inductive Operation where
  | saveProps (path : Path) (props : List Assignment)
  | loadProps (path : Path)
  | loadRequest (path : Path)
  | loadConfig (path : Path)
  /-- A command with its arguments. -/
  | command (arguments : List String)

/-- What an operation answers. -/
inductive Answer where
  | saved (result : Except Artifact.SaveError Unit)
  | props (result : Except (LoadError Artifact.Error) (List Assignment))
  | request (result : Except (LoadError (List Fault)) Request)
  | config (result : Except (LoadError Config.ParseError) Config)
  | ended (outcome : Outcome)

/-- An answer of success: no error, or exit code 0. -/
def Answer.succeeded : Answer → Bool
  | saved result => result.isOk
  | props result => result.isOk
  | request result => result.isOk
  | config result => result.isOk
  | ended outcome => outcome.code? = some 0

/-- The places that paths of a tree lead to, each with what is written there. -/
def places (t : FileTree) (writes : List (Path × List Assignment)) :
    List (Location × List Assignment) :=
  writes.map fun w => (t.place w.1, w.2)

theorem fst_places (t : FileTree) (writes : List (Path × List Assignment)) :
    (places t writes).map Prod.fst = writes.map fun w => t.place w.1 := by
  rw [places, List.map_map]
  rfl

section

variable [Platform]

/-- The file that a conversion is to write, if one is given, with the props of its job. -/
def Invocation.intent? (t : FileTree) : Invocation → Option (Path × List Assignment)
  | convert _ request options output _ => do
    let file ← nonempty? output
    let job ← (Job.load t (Path.ofString request) options).toOption
    return (Path.ofString file, job.convert.value)
  | check .. | help _ => none

namespace Operation

/-- The tree after an operation, and its answer. -/
def perform (t : FileTree) : Operation → FileTree × Answer
  | saveProps path props => Prod.map id .saved (Artifact.save t path props)
  | loadProps path => (t, .props (Artifact.load t path))
  | loadRequest path => (t, .request (Request.load t path))
  | loadConfig path => (t, .config (Config.load t path))
  | command arguments => Prod.map id .ended (run t arguments)

/-- The path that an operation is to write to and the props that it is to write there: those that it
is given, or those that are converted. -/
def intent? (t : FileTree) : Operation → Option (Path × List Assignment)
  | saveProps path props => some (path, props)
  | command arguments => (Invocation.ofArguments arguments).toOption.bind (·.intent? t)
  | loadProps _ | loadRequest _ | loadConfig _ => none

/-- What an operation has written, if it has succeeded. -/
def written? (t : FileTree) (o : Operation) : Option (Path × List Assignment) :=
  if (o.perform t).2.succeeded then o.intent? t else none

end Operation

/-- The tree after operations in a row, with what they have written in order. -/
def session (t : FileTree) : List Operation → FileTree × List (Path × List Assignment)
  | [] => (t, [])
  | o :: os =>
    let rest := session (o.perform t).1 os
    (rest.1, (o.written? t).toList ++ rest.2)

variable {t t' : FileTree} {verbose : Bool} {request : Path} {options : Options}

/-! ### One operation -/

/-- What an operation does to a tree: it makes directories and has written nothing, or saves what it
has written. -/
inductive Effect (t t' : FileTree) : Option (Path × List Assignment) → Prop
  | kept : t.Extends t' [] → Effect t t' none
  | saved {path : Path} {props : List Assignment} :
    Artifact.save t path props = (t', .ok ()) → Effect t t' (some (path, props))

namespace Effect

variable {written : Option (Path × List Assignment)}

theorem extends_tree (h : Effect t t' written) (hdirect : ∀ w ∈ written, w.1.isDirect = true) :
    t.Extends t' (written.toList.map fun w => t.place w.1) := by
  cases h with
  | kept hextends => exact hextends
  | saved hsave => exact FileTree.extends_write (hdirect _ rfl) (Artifact.save_eq_ok.mp hsave).2

/-- What is written stands at the place of its path, and keeps the limits that it is read within. -/
theorem stands {path : Path} {props : List Assignment} (h : Effect t t' (some (path, props)))
    (hdirect : path.isDirect = true) :
    path.IsProper ∧ Artifact.overrun? Platform.limits props = none ∧
      t'.Stands (t.place path) (Utf8.encode (Artifact.serialize props).toList) := by
  cases h with
  | saved hsave =>
    obtain ⟨hlimits, hwrite⟩ := Artifact.save_eq_ok.mp hsave
    exact ⟨FileTree.isProper_of_write hdirect hwrite, hlimits,
      FileTree.stands_write hdirect hwrite⟩

end Effect

theorem save_effect (t : FileTree) (path : Path) (props : List Assignment) :
    Effect t (Artifact.save t path props).1
      (if (Artifact.save t path props).2.isOk then some (path, props) else none) := by
  cases hsave : Artifact.save t path props with
  | mk t' result =>
    cases result with
    | ok _ => exact .saved hsave
    | error e => exact .kept (Artifact.extends_save_error hsave)

theorem deliver_effect (t : FileTree) (props : List Assignment) (output : Option String)
    (messages : List Notice) :
    Effect t (deliver t props output messages).1
      (if (deliver t props output messages).2.code? = some 0 then
        (nonempty? output).map fun file => (Path.ofString file, props) else none) := by
  cases houtput : nonempty? output with
  | none =>
    have htree : (deliver t props output messages).1 = t := by
      simp only [deliver, houtput]
      cases Artifact.serializeWithin Platform.limits props <;> rfl
    rw [htree]
    simpa using Effect.kept (.refl t)
  | some file =>
    rcases hsave : Artifact.save t (Path.ofString file) props with ⟨t', error | written⟩
    · rw [deliver_of_refusal houtput hsave, if_neg (Outcome.code?_ofError_ne _ _)]
      exact .kept (Artifact.extends_save_error hsave)
    · rw [deliver_of_save houtput hsave, if_pos (Outcome.code?_finished rfl)]
      exact .saved hsave

/-- A conversion writes the props of its job to a file that is given, if it succeeds. -/
theorem runConvert_effect (t : FileTree) (verbose : Bool) (request : Path) (options : Options)
    (output : Option String) (strict : Bool) :
    let run := runConvert t verbose request options output strict
    Effect t run.1 (if run.2.code? = some 0 then do
        let file ← nonempty? output
        let job ← (Job.load t request options).toOption
        return (Path.ofString file, job.convert.value)
      else none) := by
  intro run
  cases hload : Job.load t request options with
  | error error =>
    have hrun : run = _ := runConvert_of_error hload
    rw [hrun, if_neg (Outcome.code?_ofError_ne _ _)]
    exact .kept (.refl t)
  | ok job =>
    by_cases hfree : (job.obstacles strict).value = []
    · have hrun : run = _ := runConvert_of_free hload hfree
      rw [hrun]
      have heffect := deliver_effect t job.convert.value output
        (skipped verbose (job.obstacles strict) ++ skipped verbose job.convert)
      cases houtput : nonempty? output <;> simpa [houtput, Except.toOption] using heffect
    · have hrun : run = _ := runConvert_of_obstacles hload hfree
      rw [hrun]
      exact .kept (.refl t)

theorem invocation_effect (t : FileTree) (invocation : Invocation) :
    Effect t (invocation.run t).1
      (if (invocation.run t).2.code? = some 0 then invocation.intent? t else none) := by
  have hkept (outcome : Outcome) : Effect t t (if outcome.code? = some 0 then none else none) := by
    rw [ite_self]
    exact .kept (.refl t)
  cases invocation with
  | help topic => exact hkept _
  | check verbose request options => exact hkept _
  | convert verbose request options output strict => exact runConvert_effect t _ _ _ _ _

theorem command_effect (t : FileTree) (arguments : List String) :
    Effect t (run t arguments).1
      (if (run t arguments).2.code? = some 0 then (Operation.command arguments).intent? t
        else none) := by
  cases harguments : Invocation.ofArguments arguments with
  | error error =>
    have hrun : run t arguments = (t, .finished 2 [] [.usage error]) := by
      simp only [run, harguments]
    rw [hrun]
    exact .kept (.refl t)
  | ok invocation =>
    have hrun : run t arguments = invocation.run t := by simp only [run, harguments]
    have hintent : (Operation.command arguments).intent? t = invocation.intent? t := by
      simp only [Operation.intent?, harguments]
      rfl
    rw [hrun, hintent]
    exact invocation_effect t invocation

/-- Every operation has its effect: what it has written is saved, and otherwise nothing is. -/
theorem perform_effect (t : FileTree) (o : Operation) :
    Effect t (o.perform t).1 (o.written? t) := by
  have hread (answer : Answer) : Effect t t (if answer.succeeded then none else none) := by
    rw [ite_self]
    exact .kept (.refl t)
  cases o with
  | saveProps path props => exact save_effect t path props
  | loadProps path => exact hread _
  | loadRequest path => exact hread _
  | loadConfig path => exact hread _
  | command arguments =>
    have heffect := command_effect t arguments
    simpa [Operation.written?, Operation.perform, Answer.succeeded] using heffect

/-! ### Operations in a row -/

variable {os : List Operation}

theorem session_extends (t : FileTree) (os : List Operation)
    (hdirect : ∀ w ∈ (session t os).2, w.1.isDirect = true) :
    t.Extends (session t os).1 ((places t (session t os).2).map Prod.fst) := by
  rw [fst_places]
  induction os generalizing t with
  | nil => exact .refl t
  | cons o os ih =>
    rw [session, List.forall_mem_append] at hdirect
    have hone := (perform_effect t o).extends_tree fun w hw =>
      hdirect.1 w (Option.mem_toList.mpr hw)
    have hrest := ih (o.perform t).1 hdirect.2
    simp only [FileTree.place_congr hone.workingDirectory] at hrest
    rw [session, List.map_append]
    exact hone.trans hrest

/-- What is written to a place last stands there after the session. -/
theorem stands_session {l : Location} {props : List Assignment}
    (hdirect : ∀ w ∈ (session t os).2, w.1.isDirect = true)
    (hlast : Keyed.last? l (places t (session t os).2) = some props) :
    Artifact.overrun? Platform.limits props = none ∧
      (session t os).1.Stands l (Utf8.encode (Artifact.serialize props).toList) := by
  induction os generalizing t with
  | nil => cases hlast
  | cons o os ih =>
    have heffect := perform_effect t o
    rw [session, List.forall_mem_append] at hdirect
    have hone := heffect.extends_tree fun w hw => hdirect.1 w (Option.mem_toList.mpr hw)
    have hplaces : places (o.perform t).1 = places t := by
      funext writes
      simp only [places, FileTree.place_congr hone.workingDirectory]
    have hsplit : places t (session t (o :: os)).2 =
        places t (o.written? t).toList ++ places t (session (o.perform t).1 os).2 :=
      List.map_append
    rw [hsplit, Keyed.last?_append] at hlast
    cases hlater : Keyed.last? l (places t (session (o.perform t).1 os).2) with
    | some later =>
      rw [hlater] at hlast
      cases hlast
      exact ih hdirect.2 (hplaces ▸ hlater)
    -- Nothing is written to the place later on, so its file stays as this operation leaves it.
    | none =>
      rw [hlater, Option.none_or] at hlast
      obtain ⟨w, hw, heq⟩ := List.mem_map.mp (Keyed.mem_of_last? hlast)
      cases heq
      have hwritten : o.written? t = some (w.1, w.2) := Option.mem_toList.mp hw
      rw [hwritten] at heffect
      obtain ⟨-, hlimits, hstands⟩ := heffect.stands (hdirect.1 w hw)
      have hextends := session_extends (o.perform t).1 os hdirect.2
      rw [hplaces] at hextends
      exact ⟨hlimits, hextends.stands (Keyed.last?_eq_none.mp hlater) hstands⟩

/-- The paths that are written can be those of files. -/
theorem isProper_of_session {w : Path × List Assignment}
    (hdirect : ∀ w ∈ (session t os).2, w.1.isDirect = true) (hw : w ∈ (session t os).2) :
    w.1.IsProper := by
  induction os generalizing t with
  | nil => cases hw
  | cons o os ih =>
    have heffect := perform_effect t o
    rw [session, List.forall_mem_append] at hdirect
    rw [session, List.mem_append] at hw
    rcases hw with hw | hw
    · have hwritten : o.written? t = some (w.1, w.2) := Option.mem_toList.mp hw
      rw [hwritten] at heffect
      exact (heffect.stands (hdirect.1 w hw)).1
    · exact ih hdirect.2 hw

/-- The last write wins over whole sessions, in whatever order operations succeed and fail, as long
as no path that is written has a name of two dots. Paths are told apart by the places that they lead
to, from the root or from the working directory. What is loaded at the end from a path that was
written, under whatever spelling, are the props that were written to its place last. A file is at
the end of a session what it was at its start, or was a place where something has been written; so
what could be read before can be read afterwards, unless its place was written to. -/
theorem last_write_wins (t : FileTree) (os : List Operation)
    (hdirect : ∀ w ∈ (session t os).2, w.1.isDirect = true) :
    let after := (session t os).1
    let writes := (session t os).2
    let written := (places t writes).map Prod.fst
    (∀ w ∈ writes, w.1.IsProper ∧ t.place w.1 ∈ written) ∧
    (∀ p, p.IsProper → t.place p ∈ written → ∃ props,
      Keyed.last? (t.place p) (places t writes) = some props ∧ Artifact.load after p = .ok props) ∧
    (∀ l, l ∉ written → ∀ content,
      after.node? l = some (.file content) ↔ t.node? l = some (.file content)) ∧
    (∀ p, p.isDirect = true → t.place p ∉ written → ∀ content,
      t.read p = .ok content → after.read p = .ok content) := by
  intro after writes written
  have hextends : t.Extends after written := session_extends t os hdirect
  refine ⟨fun w hw => ⟨isProper_of_session hdirect hw, ?_⟩, fun p hproper hp => ?_,
    hextends.file_iff, fun p hp hwritten content hread => hextends.read hp hwritten hread⟩
  · exact List.mem_map_of_mem (List.mem_map_of_mem hw)
  · cases hlast : Keyed.last? (t.place p) (places t writes) with
    | none => exact absurd hp (Keyed.last?_eq_none.mp hlast)
    | some props =>
      obtain ⟨hlimits, hstands⟩ := stands_session hdirect hlast
      rw [← FileTree.place_congr hextends.workingDirectory] at hstands
      exact ⟨props, rfl, Artifact.load_of_read hlimits (hstands.read hproper)⟩

end

/-- A tree with a request for nothing in the working directory. -/
def requestInDirectory : FileTree :=
  ⟨⟨["work"]⟩, [(⟨["r.json", "work"]⟩, .file (Utf8.encode "{}".toList))]⟩

/-- Props are saved, a conversion writes over them by the path from the root, and a path below the
file cannot be written. -/
theorem conversion_over_saved_props_wins :
    let one : Assignment := .mk (.identifier "a") (.member "string")
    let os : List Operation :=
      [.saveProps ⟨false, ["out", "p.json"]⟩ [one],
       .command ["convert", "r.json", "--output", "/work/out/p.json"],
       .saveProps ⟨false, ["out", "p.json", "q.json"]⟩ [one],
       .command ["check", "r.json"]]
    (@session .standard requestInDirectory os).2.map Prod.fst =
        [⟨false, ["out", "p.json"]⟩, ⟨true, ["work", "out", "p.json"]⟩] ∧
      @Artifact.load .standard (@session .standard requestInDirectory os).1
        ⟨false, ["out", "p.json"]⟩ = .ok [] ∧
      (@session .standard requestInDirectory os).1.read ⟨false, ["r.json"]⟩ =
        .ok (Utf8.encode "{}".toList) := by
  intro one os
  have hwrites : (@session .standard requestInDirectory os).2 =
      [(⟨false, ["out", "p.json"]⟩, [one]), (⟨true, ["work", "out", "p.json"]⟩, [])] := by
    decide +kernel
  obtain ⟨-, hloaded, -, hkept⟩ :=
    @last_write_wins .standard requestInDirectory os (by rw [hwrites]; decide)
  have hlast : Keyed.last? ⟨["p.json", "out", "work"]⟩
      (places requestInDirectory (@session .standard requestInDirectory os).2) = some [] := by
    rw [hwrites]
    rfl
  refine ⟨by rw [hwrites]; rfl, ?_, hkept _ rfl (by rw [hwrites]; decide) _ rfl⟩
  obtain ⟨props, hprops, hload⟩ := hloaded ⟨false, ["out", "p.json"]⟩ (by decide)
    (by rw [hwrites]; decide)
  obtain rfl := Option.some.inj (hlast.symm.trans hprops)
  exact hload

end Command

end PropValidators
