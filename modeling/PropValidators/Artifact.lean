import PropValidators.Document.Validator
import PropValidators.Json.Display
import PropValidators.Json.Printer
import PropValidators.Json.Reader
import PropValidators.Validator.Equality
/-!
Converted props as a document of their own: compact JSON with a format version, so that documents
of another version are told apart.
-/
namespace PropValidators.Artifact

/-- The version that documents of this format carry. -/
def formatVersion : String := "1"

def document (props : List Assignment) : Json :=
  .object [Json.member "v" (.ofString formatVersion),
    Json.member "props" (.array (Assignment.listToJson props))]

/-- The text of converted props, whatever its size. -/
def serialize (props : List Assignment) : String := (document props).compact

/-- The first limit that converted props do not keep. -/
def overrun? (limits : Limits) (props : List Assignment) : Option Overrun :=
  if limits.allowValidators (Validator.heightOfAssignments props) then
    (document props).overrun? limits 0
  else some .validators

/-- The text of converted props within limits. -/
def serializeWithin (limits : Limits) (props : List Assignment) : Except Overrun String :=
  match overrun? limits props with
  | none => .ok (serialize props)
  | some overrun => .error overrun

/-- Why a text does not hold converted props. -/
inductive Error where
  | malformed (reason : Json.SyntaxError)
  | notObject
  | unsupportedVersion (found : Json)
  | invalid (faults : List Fault)
  /-- Validators in one another beyond the limit. -/
  | tooNested
  /-- A limit of the reader, which breaks the reading off. -/
  | overrun (overrun : Overrun)

namespace Error

/-- The error in words, without the single faults; none for what breaks the reading off. -/
def summary? : Error → Option String
  | malformed reason => some ("Invalid props document: " ++ reason.message)
  | notObject => some "Invalid props document: expected a JSON object"
  | unsupportedVersion found => some ("Unsupported artifact format version: " ++ found.display)
  | invalid _ | tooNested => some "Invalid props document"
  | overrun _ => none

end Error

/-- The props of a document's members; no props are an empty list of them. -/
def ofMembers (limits : Limits) (members : Members) : Except Error (List Assignment) :=
  match Assignment.checkList ((members.last? "props").getD (.array [])) with
  | .valid props =>
    if limits.allowValidators (Validator.heightOfAssignments props) then .ok props
    else .error .tooNested
  | .faulty first others => .error (.invalid (first :: others))

/-- The converted props that a text holds, read within limits. -/
def deserialize (limits : Limits) (text : String) : Except Error (List Assignment) :=
  match Json.read limits text with
  | .error (.malformed reason) => .error (.malformed reason)
  | .error (.overrun overrun) => .error (.overrun overrun)
  | .ok (.object members) =>
    match Members.last? members "v" with
    | some (.string t) =>
      if t = formatVersion then ofMembers limits members
      else .error (.unsupportedVersion (.string t))
    | some found => .error (.unsupportedVersion found)
    | none => .error (.unsupportedVersion .null)
  | .ok _ => .error .notObject

/-- Whether converted props read back as equal ones. A literal that is not a number equals none. -/
def readsBack (props : List Assignment) : Bool :=
  match deserialize .unlimited (serialize props) with
  | .ok back => back = props && !Validator.assignmentsHaveNaN props
  | .error _ => false

end PropValidators.Artifact
