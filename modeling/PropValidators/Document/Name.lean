import PropValidators.TypeExpr
import PropValidators.Document.Checked
/-!
Names, literal values and property keys as documents write them.
-/
namespace PropValidators

/-- A document with the members of a variant or record after its kind. -/
def Json.ofKind (kind : String) (members : List (JoinedText × Json)) : Json :=
  .object (Json.member "kind" (.ofString kind) :: members)

namespace Literal

def toJson : Literal → Json
  | bool b => .bool b
  | int n => .int n
  | float x => .float x
  | string t => .string t

/-- A document that writes a value out with its kind. -/
def toDocument (value : Literal) : Json := .ofKind "value" [Json.member "value" value.toJson]

/-- The faults of a value that is of none of the four types a literal can have. -/
def noAlternative : Checked Literal :=
  .faulty ⟨[.name "bool"], .notBoolean⟩
    [⟨[.name "int"], .notInteger⟩, ⟨[.name "float"], .notFloat⟩, ⟨[.name "str"], .notString⟩]

/-- The value of a literal, which keeps its type. -/
def check : Json → Checked Literal
  | .bool b => .valid (.bool b)
  | .int n => .valid (.int n)
  | .float x => .valid (.float x)
  | .string t => .valid (.string t)
  | _ => noAlternative

def checkMembers (members : Members) : Checked Literal :=
  Members.required members "value" fun j _ => check j

/-- A literal in a place where there can be nothing else. -/
def checkRecord : Json → Checked Literal
  | .object members =>
    .combine (fun _ value => value) (Members.fixedKind members "value") (checkMembers members)
  | _ => .fault .notRecord

end Literal

namespace EntityName

def toJson : EntityName → Json
  | identifier name => .ofKind "identifier" [Json.member "name" (.string name)]
  | qualified left right =>
    .ofKind "qualified"
      [Json.member "left" left.toJson,
       Json.member "right" (.ofKind "identifier" [Json.member "name" (.string right)])]

def checkIdentifier (members : Members) : Checked JoinedText :=
  Members.required members "name" fun j _ => j.checkText

def checkRight : Json → Checked JoinedText
  | .object members =>
    .combine (fun _ name => name) (Members.fixedKind members "identifier") (checkIdentifier members)
  | _ => .fault .notRecord

def check : Json → Checked EntityName
  | .object members =>
    match Members.kind members with
    | .ok "identifier" => (EntityName.identifier <$> checkIdentifier members).underName "identifier"
    | .ok "qualified" =>
      (EntityName.qualified <$> Members.required members "left" (fun j _ => check j)
        <*> Members.required members "right" (fun j _ => checkRight j)).underName "qualified"
    | .ok _ => .fault .kindUnknown
    | .error cause => .fault cause
  | _ => .fault .notVariant
termination_by j => sizeOf j
decreasing_by simp only [Json.object.sizeOf_spec]; omega

end EntityName

namespace PropertyKey

def toJson : PropertyKey → Json
  | identifier name => .ofKind "identifier" [Json.member "name" (.string name)]
  | literal value => value.toDocument

def check : Json → Checked PropertyKey
  | .object members =>
    match Members.kind members with
    | .ok "identifier" =>
      (PropertyKey.identifier <$> EntityName.checkIdentifier members).underName "identifier"
    | .ok "value" => (PropertyKey.literal <$> Literal.checkMembers members).underName "value"
    | .ok _ => .fault .kindUnknown
    | .error cause => .fault cause
  | _ => .fault .notVariant

end PropertyKey

end PropValidators
