import PropValidators.Document.TypeExpr
import PropValidators.Json.Reader
/-!
Requests for conversion: declared groups of properties, the names selected from them, and the name
that the framework is imported as.
-/
namespace PropValidators

/-- A request. No names means that none are selected. -/
structure Request where
  groups : Groups
  typeNames : List Text
  importName : Option Text

def Groups.checkEntry (name : JoinedText) (value : Json) :
    Checked (Text × List Property) :=
  match name.points.toString? with
  | some s => ((name.points, ·) <$> Property.checkList value).underName s
  | none => .fault .unpairedSurrogate

/-- The groups of a document, every one of them checked. -/
def Groups.checkEntries : Members → Checked (List (Text × List Property))
  | [] => .valid []
  | (name, value) :: entries =>
    .combine (· :: ·) (Groups.checkEntry name value) (Groups.checkEntries entries)

/-- Groups by name. A name that is repeated keeps its first place and has its last group. -/
def Groups.check : Json → Checked Groups
  | .object entries => Keyed.settled <$> Groups.checkEntries entries
  | _ => .fault .notMapping

namespace Request

def check : Json → Checked Request
  | .object members =>
    Request.mk
      <$> Members.optional members "types" [] (fun j _ => Groups.check j)
      <*> Members.optional members "type_names" [] (fun j _ =>
            j.checkList fun item _ => Text.ofString <$> item.checkString)
      <*> Members.optional members "namespace_alias" none (fun j _ =>
            Option.map Text.ofString <$> j.checkStringOrNull)
  | _ => .fault .notRecord

/-- What is wrong with a text that holds no request, without the single faults. -/
def invalidSummary (label : String) : String := s!"Invalid request in {label}"

def invalidMessage (label : String) (faults : List Fault) : String :=
  invalidSummary label ++ ": " ++ "; ".intercalate (faults.map Fault.message)

def parse (text : String) : Checked Request :=
  match Json.readAdmitted? text with
  | some j => check j
  | none => .fault .notJson

end Request

end PropValidators
