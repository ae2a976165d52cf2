import PropValidators.Command.Job
/-!
Commands as functions on file trees: what they change, what they print, and how they end.
-/
namespace PropValidators.Command

/-- Something that a command prints. -/
inductive Notice where
  | help (topic : Topic)
  | usage (error : UsageError)
  | skipped (skip : Skip)
  | omitted (omission : Omission)
  | noOmissions
  | failed (error : Error)
  | converted (text : String)
  | written (count : Nat) (path : Path)

def Notice.text : Notice → Text
  | help topic => topic.help
  | usage error => error.text
  | skipped skip => skip.record ++ "\n"
  | omitted omission => "Warning: " ++ omission.message ++ "\n"
  | noOmissions => lines ["No omissions found."]
  | failed error => lines ["Error: " ++ error.message?.getD ""]
  | converted text => lines [text]
  | written count path => lines [s!"Wrote {count} prop type(s) to '{path.text}'."]

/-- Whether there are octets for a notice. -/
def Notice.isPrintable (n : Notice) : Bool := n.text.toChars?.isSome

/-- The text of notices one after another, in which surrogates are shown as escapes. -/
def printed (notices : List Notice) : String := String.join (notices.map fun n => n.text.escaped)

/-- How a command ends: with an exit code, after printing output and messages, or broken off after
printing messages. -/
inductive Outcome where
  | finished (code : Nat) (output messages : List Notice)
  | brokenOff (error : Error) (messages : List Notice)

namespace Outcome

/-- The end after an error, which is reported if it has words. -/
def ofError (messages : List Notice) (error : Error) : Outcome :=
  match error.message? with
  | some _ => finished 1 [] (messages ++ [.failed error])
  | none => brokenOff error messages

/-- The exit code, none for a command that is broken off: by an error without words, or by output
that there are no octets for. -/
def code? : Outcome → Option Nat
  | finished code output _ => if output.all Notice.isPrintable then some code else none
  | brokenOff .. => none

/-- The text that is printed as output, which ends before what there are no octets for. -/
def outputText : Outcome → String
  | finished _ output _ => printed (output.takeWhile Notice.isPrintable)
  | brokenOff .. => ""

def messageText : Outcome → String
  | finished _ _ messages | brokenOff _ messages => printed messages

end Outcome

/-- The records of what was skipped, if they are asked for. -/
def skipped {α : Type} (verbose : Bool) (x : Traced α) : List Notice :=
  if verbose then x.skips.map .skipped else []

/-- The omissions that keep a job from being converted: none unless the check is strict. -/
def Job.obstacles (job : Job) (strict : Bool) : Traced (List Omission) :=
  if job.strict || strict then job.omissions else pure []

section Runs

variable [Platform]

/-- Prints converted props, or writes them to a file. -/
def deliver (t : FileTree) (props : List Assignment) (output : Option String)
    (messages : List Notice) : FileTree × Outcome :=
  match nonempty? output with
  | none =>
    match Artifact.serializeWithin Platform.limits props with
    | .ok text => (t, .finished 0 [.converted text] messages)
    | .error overrun => (t, .ofError messages (.overrun overrun))
  | some output =>
    let path := Path.ofString output
    match Artifact.save t path props with
    | (t, .ok ()) => (t, .finished 0 [.written props.length path] messages)
    | (t, .error error) => (t, .ofError messages (.ofSave path error))

/-- Converts the selected groups of a request, if nothing is in the way. -/
def runConvert (t : FileTree) (verbose : Bool) (request : Path) (options : Options)
    (output : Option String) (strict : Bool) : FileTree × Outcome :=
  match Job.load t request options with
  | .error error => (t, .ofError [] error)
  | .ok job =>
    let obstacles := job.obstacles strict
    if obstacles.value.isEmpty then
      let props := job.convert
      deliver t props.value output (skipped verbose obstacles ++ skipped verbose props)
    else
      (t, .ofError (skipped verbose obstacles ++ obstacles.value.map .omitted)
        (.omissions obstacles.value.length))

/-- Reports what conversion of the selected groups would leave out. -/
def runCheck (t : FileTree) (verbose : Bool) (request : Path) (options : Options) : Outcome :=
  match Job.load t request options with
  | .error error => .ofError [] error
  | .ok job =>
    let omissions := job.omissions
    if omissions.value.isEmpty then .finished 0 [.noOmissions] (skipped verbose omissions)
    else .finished 1 (omissions.value.map .omitted) (skipped verbose omissions)

def Invocation.run (t : FileTree) : Invocation → FileTree × Outcome
  | .help topic => (t, .finished 0 [.help topic] [])
  | .convert verbose request options output strict =>
    runConvert t verbose (Path.ofString request) options output strict
  | .check verbose request options => (t, runCheck t verbose (Path.ofString request) options)

def run (t : FileTree) (arguments : List String) : FileTree × Outcome :=
  match Invocation.ofArguments arguments with
  | .ok invocation => invocation.run t
  | .error error => (t, .finished 2 [] [.usage error])

end Runs

end PropValidators.Command
