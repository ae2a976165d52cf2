import PropValidators.Command.Word
import PropValidators.Keyed
/-!
What a command line asks for. The options of the program itself stand before the name of a command;
those of the command stand before and after the request.
-/
namespace PropValidators.Command

/-- The settings that every command may be given. -/
structure Options where
  importName : Option String := none
  typeNames : List String := []
  config : Option String := none
  deriving DecidableEq, Repr

inductive Invocation where
  | help (topic : Topic)
  | convert (verbose : Bool) (request : String) (options : Options) (output : Option String)
      (strict : Bool)
  | check (verbose : Bool) (request : String) (options : Options)
  deriving DecidableEq, Repr

/-- What the words of a level say: options with their values, the request, and words left over. -/
structure Reading where
  given : List (Flag × String) := []
  request : Option String := none
  left : List String := []

/-- Why the words of a level are not read to their end. -/
inductive Interruption where
  | help
  | problem (problem : UsageProblem)

namespace Reading

/-- The value that an option is given last. -/
def value? (r : Reading) (f : Flag) : Option String := Keyed.last? f r.given

def values (r : Reading) (f : Flag) : List String :=
  (r.given.filter fun entry => entry.1 = f).map (·.2)

def isGiven (r : Reading) (f : Flag) : Bool := (r.value? f).isSome

def withRequest (text : String) (r : Reading) : Reading := { r with request := some text }

def withLeft (text : String) (r : Reading) : Reading := { r with left := text :: r.left }

/-- What a cluster and the words after it say. Help that is asked for interrupts the reading. -/
def after (c : Cluster) (rest : Except Interruption Reading) : Except Interruption Reading :=
  if c.given.any fun entry => entry.1 = .help then .error .help
  else rest.map fun r =>
    { r with given := c.given ++ r.given, left := c.unknown.toList ++ r.left }

/-- What the words of a level say. The first plain word is the request if one is `wanted`; two
dashes before or after it are passed over. -/
def ofWords (topic : Topic) : (wanted : Bool) → List Word → Except Interruption Reading
  | _, [] => .ok {}
  | true, .plain text :: .separator :: words => (ofWords topic false words).map (withRequest text)
  | true, .plain text :: words => (ofWords topic false words).map (withRequest text)
  | false, .plain text :: words => (ofWords topic false words).map (withLeft text)
  | true, .separator :: .plain text :: words => (ofWords topic false words).map (withRequest text)
  | wanted, .separator :: words => (ofWords topic wanted words).map (withLeft "--")
  | wanted, .unknown text :: words => (ofWords topic wanted words).map (withLeft text)
  | wanted, .flag f name attached :: words =>
    match Attachment.cluster topic f (name.toList.length = 2) attached with
    | .error problem => .error (.problem problem)
    | .ok c =>
      match c.awaiting, words with
      | none, words => after c (ofWords topic wanted words)
      | some g, .plain text :: words =>
        after { c with given := c.given ++ [(g, text)] } (ofWords topic wanted words)
      | some g, _ => .error (.problem (.missingValue g))

def invocation (r : Reading) (verbose : Bool) (c : Command) (request : String) : Invocation :=
  let options : Options := ⟨r.value? .importName, r.values .type, r.value? .config⟩
  match c with
  | .convert => .convert verbose request options (r.value? .output) (r.isGiven .strict)
  | .check => .check verbose request options

end Reading

namespace Invocation

def read (topic : Topic) (wanted : Bool) (words : List Word)
    (next : Reading → Except UsageError Invocation) : Except UsageError Invocation :=
  match Reading.ofWords topic wanted words with
  | .ok r => next r
  | .error .help => .ok (.help topic)
  | .error (.problem problem) => .error ⟨topic, problem⟩

/-- What the arguments after the name of a command ask for. Words that are left over before the name
are reported with those after it. -/
def ofCommand (c : Command) (verbose : Bool) (left arguments : List String) :
    Except UsageError Invocation := do
  let topic := Topic.command c
  let words ← (Word.ofStrings topic arguments).mapError (UsageError.mk topic)
  read topic true words fun r =>
    match r.request with
    | none => .error ⟨topic, .missingRequest⟩
    | some request =>
      if (left ++ r.left).isEmpty then .ok (r.invocation verbose c request)
      else .error ⟨.program, .unrecognized (left ++ r.left)⟩

/-- What arguments ask for. The first word that is no option names a command; without one, help is
asked for. -/
def ofArguments (arguments : List String) : Except UsageError Invocation := do
  let words ← (Word.ofStrings .program arguments).mapError (UsageError.mk .program)
  let front := words.takeWhile Word.isOption
  read .program false front fun r =>
    match arguments.drop front.length with
    | [] => if r.left.isEmpty then .ok (.help .program) else .error ⟨.program, .unrecognized r.left⟩
    | ["--"] => .error ⟨.program, .unrecognized (r.left ++ ["--"])⟩
    | name :: rest =>
      match ofName? name with
      | some c => ofCommand c (r.isGiven .verbose) r.left rest
      | none => .error ⟨.program, .unknownCommand name⟩

end Invocation

end PropValidators.Command
