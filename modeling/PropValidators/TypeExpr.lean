import PropValidators.Number.Shortest
import PropValidators.Text.Basic
/-!
The types that component props are annotated with: names, literal values, property keys, and the
tree of type expressions with the members of object types.
-/
namespace PropValidators

/-- A possibly qualified type name, such as `Namespace.Type`. -/
inductive EntityName where
  | identifier (name : JoinedText)
  | qualified (left : EntityName) (right : JoinedText)
  deriving DecidableEq, Repr, Inhabited

/-- The identifiers of a name with a dot between each two. -/
def EntityName.flatten : EntityName → Text
  | identifier name => name.points
  | qualified left right => left.flatten ++ "." ++ right.points

/-- A literal value as the type writes it. -/
inductive Literal where
  | bool (value : Bool)
  | int (value : Int)
  | float (value : Binary64)
  | string (value : JoinedText)
  deriving DecidableEq, Inhabited

namespace Literal

/-- The text of a literal value, a string without quotes. -/
def text : Literal → Text
  | bool b => if b then "True" else "False"
  | int n => .ofChars (Digits.ofInt n)
  | float x => .ofChars x.text
  | string t => t.points

def isNaN : Literal → Bool
  | float x => x.isNaN
  | _ => false

end Literal

/-- A property key: a bare name, or a literal value. -/
inductive PropertyKey where
  | identifier (name : JoinedText)
  | literal (value : Literal)
  deriving DecidableEq, Inhabited

def PropertyKey.name : PropertyKey → Text
  | identifier name => name.points
  | literal value => value.text

mutual

/-- A type expression. The kinds that conversion does not tell apart are `other`. -/
inductive TypeExpr where
  | string
  | number
  | boolean
  | symbol
  | function
  | reference (name : EntityName) (arguments : List TypeExpr)
  | array (element : TypeExpr)
  | literal (value : Literal)
  | object (members : List Member)
  | union (types : List TypeExpr)
  | intersection (types : List TypeExpr)
  | parenthesized (inner : TypeExpr)
  | other (description : JoinedText)

inductive Member where
  | property (signature : Property)
  | index (type : Option TypeExpr)
  | method (key : PropertyKey)

/-- A property signature. Without a type it has no annotation; without a flag it is not optional. -/
inductive Property where
  | mk (key : PropertyKey) (type : Option TypeExpr) (optional : Option Bool)

end

instance : Inhabited TypeExpr := ⟨.string⟩

namespace TypeExpr

/-- The word for the kind of a type expression, as it is written. -/
def kind : TypeExpr → String
  | string => "string"
  | number => "number"
  | boolean => "boolean"
  | symbol => "symbol"
  | function => "function"
  | reference .. => "reference"
  | array _ => "array"
  | literal _ => "literal"
  | object _ => "type_literal"
  | union _ => "union"
  | intersection _ => "intersection"
  | parenthesized _ => "parenthesized"
  | other _ => "other"

def literal? : TypeExpr → Option Literal
  | literal value => some value
  | _ => none

end TypeExpr

namespace Property

def key : Property → PropertyKey
  | mk key _ _ => key

def type : Property → Option TypeExpr
  | mk _ type _ => type

def optional : Property → Option Bool
  | mk _ _ optional => optional

def name (p : Property) : Text := p.key.name

end Property

def Member.property? : Member → Option Property
  | property signature => some signature
  | _ => none

/-- Declared groups of properties, each under the name of its type. -/
abbrev Groups := List (Text × List Property)

end PropValidators
