import PropValidators.Command.Invocation
import PropValidators.File.Stored
import PropValidators.Omission
/-!
The work of a command: a request with the settings that hold for it. Options come before the
request, the request before the configuration.
-/
namespace PropValidators.Command

/-- The declared groups, the names selected from them, the name that the framework is imported as,
and whether the configuration makes omissions fail. -/
structure Job where
  groups : Groups
  typeNames : List Text
  importName : Text
  strict : Bool

inductive Error where
  | request (path : Path) (error : LoadError (List Fault))
  | config (path : Path) (error : LoadError Config.ParseError)
  | omissions (count : Nat)
  | output (path : Path) (error : FileError)
  | overrun (overrun : Overrun)

/-- The error in words; none for one that a command does not report but breaks off with. -/
def Error.message? : Error → Option String
  | request path error => Request.loadMessage? path error
  | config path error => Config.loadMessage? path error
  | omissions count => some s!"{count} omission(s) in strict mode."
  | output path error => error.message?.map (s!"cannot write '{path.text}': " ++ ·)
  | overrun _ => none

/-- Why props are not saved, as an error of a command. -/
def Error.ofSave (path : Path) : Artifact.SaveError → Error
  | .refused error => output path error
  | .overrun o => overrun o

def nonempty? (text : Option String) : Option String := text.filter fun s => !s.isEmpty

namespace Job

/-- The first text that is there and not empty. -/
def firstText (texts : List (Option Text)) (default : Text) : Text :=
  (texts.findSome? fun text => text.filter fun t => !t.isEmpty).getD default

def firstNames (lists : List (List Text)) : List Text :=
  (lists.find? fun names => !names.isEmpty).getD []

/-- The job of a request under options and a configuration. All groups are selected where nothing
selects any. -/
def ofRequest (options : Options) (request : Request) (config : Config) : Job where
  groups := request.groups
  typeNames := firstNames
    [options.typeNames.map .ofString, request.typeNames, config.typeNames,
      request.groups.map (·.1)]
  importName :=
    firstText [options.importName.map .ofString, request.importName, config.importName]
      defaultImportName
  strict := config.strict

/-- The configuration file: the one that options name, else the one beside the request if it is
there. -/
def configPath? (t : FileTree) (request : Path) (options : Options) : Option Path :=
  match nonempty? options.config with
  | some path => some (Path.ofString path)
  | none =>
    let path := request.parent.child Config.fileName
    if t.contains path then some path else none

/-- The configuration that holds for a request under options. -/
def loadConfig [Platform] (t : FileTree) (request : Path) (options : Options) :
    Except Error Config :=
  match configPath? t request options with
  | some path => (Config.load t path).mapError (.config path)
  | none => .ok {}

def load [Platform] (t : FileTree) (path : Path) (options : Options) : Except Error Job := do
  let request ← (Request.load t path).mapError (.request path)
  let config ← loadConfig t path options
  return ofRequest options request config

def setting (job : Job) : Setting := { importName := job.importName }

def omissions (job : Job) : Traced (List Omission) :=
  findOmissions job.setting job.groups job.typeNames

def convert (job : Job) : Traced (List Assignment) :=
  convertSelection job.setting job.groups job.typeNames

end Job

end PropValidators.Command
