import PropValidators.Platform
/-!
The configuration of a project: defaults for what a request and the command line leave open.
-/
namespace PropValidators

/-- A configuration. No names means that none are selected. -/
structure Config where
  importName : Option Text := none
  typeNames : List Text := []
  strict : Bool := false
  deriving DecidableEq, Repr, Inhabited

namespace Config

/-- The name of the configuration file beside a request. -/
def fileName : String := ".proptypegen.yaml"

/-- Why a value is no configuration. -/
inductive Error where
  | notMapping
  | importName
  | typeNames
  | strict
  deriving DecidableEq, Repr

def Error.message : Error → String
  | notMapping => "config must be a YAML mapping"
  | importName => "'namespace-alias' must be a non-empty string"
  | typeNames => "'type-names' must be a list of strings"
  | strict => "'strict' must be a boolean"

/-- The value of the last entry under a string. -/
def field? (name : String) : List (Yaml.Value × Yaml.Value) → Option Yaml.Value
  | [] => none
  | (key, value) :: entries =>
    match field? name entries with
    | some later => some later
    | none =>
      match key with
      | .string s => if s = Text.ofString name then some value else none
      | _ => none

/-- The name that the framework is imported as, which is not empty. -/
def importNameOf : Option Yaml.Value → Except Error (Option Text)
  | none => .ok none
  | some (.string s) => if s.isEmpty then .error .importName else .ok (some s)
  | some _ => .error .importName

def string? : Yaml.Value → Option Text
  | .string s => some s
  | _ => none

def typeNamesOf : Option Yaml.Value → Except Error (List Text)
  | none => .ok []
  | some (.list items) =>
    match items.mapM string? with
    | some names => .ok names
    | none => .error .typeNames
  | some _ => .error .typeNames

def strictOf : Option Yaml.Value → Except Error Bool
  | none => .ok false
  | some (.bool b) => .ok b
  | some _ => .error .strict

/-- The configuration that a value stands for. Other entries are ignored. -/
def ofValue : Yaml.Value → Except Error Config
  | .null => .ok {}
  | .mapping entries => do
    let importName ← importNameOf (field? "namespace-alias" entries)
    let typeNames ← typeNamesOf (field? "type-names" entries)
    let strict ← strictOf (field? "strict" entries)
    return { importName, typeNames, strict }
  | _ => .error .notMapping

/-- Why a text is no configuration: it cannot be read as a value, or its value is none. -/
inductive ParseError where
  | unreadable (failure : Yaml.Failure)
  | invalid (error : Error)
  deriving DecidableEq, Repr

/-- The error in words; none for what breaks the reading off. -/
def ParseError.message? (label : String) : ParseError → Option String
  | unreadable .malformed => some s!"Invalid YAML in {label}"
  | unreadable (.brokenOff _) => none
  | invalid error => some s!"{label}: {error.message}"

def parse [Platform] (text : String) : Except ParseError Config :=
  match Platform.loadYaml text with
  | .error failure => .error (.unreadable failure)
  | .ok value => (ofValue value).mapError .invalid

end Config

end PropValidators
