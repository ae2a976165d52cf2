import PropValidators.Reference
import PropValidators.Traced
/-!
Conversion of type expressions into validators. What has no validator is left out at the narrowest
place: a property, a member of a union, the element type of an array.
-/
namespace PropValidators

/-- What conversion depends on beside the type: the name that the framework is imported as,
and how a type name is resolved to dotted text. -/
structure Setting where
  importName : Text
  resolve : EntityName → Text := EntityName.flatten

/-- The framework's own name, which it is imported as unless another name is given. -/
def defaultImportName : Text := "React"

/-- The literals of types that are all literal types. -/
def allLiterals? (types : List TypeExpr) : Option (List Literal) :=
  types.mapM TypeExpr.literal?

/-- The validator of a union: a choice among literals if all its types are, else among the
validators of its types; none if there is nothing to choose from. -/
def choice (types : List TypeExpr) (validators : List Validator) : Option Validator :=
  match allLiterals? types with
  | some [] => none
  | some literals => some (.callArray "oneOf" (literals.map .literal))
  | none =>
    if validators.isEmpty then none
    else some (.callArray "oneOfType" (validators.map .validator))

mutual

/-- The validator of a type, none if it has none. One layer of parentheses is looked
through; `inParentheses` says that it has been. -/
def convertWithin (setting : Setting) (inParentheses : Bool) :
    TypeExpr → Traced (Option Validator)
  | .string => pure (some (.member "string"))
  | .number => pure (some (.member "number"))
  | .boolean => pure (some (.member "bool"))
  | .symbol => pure (some (.member "symbol"))
  | .function => pure (some (.member "func"))
  | .reference name _ => do
    Traced.lookup name
    return validatorOfReference (setting.resolve name) setting.importName
  | .array element => do
    match ← convertWithin setting false element with
    | some v => return some (.callOne "arrayOf" v)
    | none => return some (.member "array")
  | .literal _ => pure none
  | .object [] => pure (some (.member "object"))
  | .object [.index none] => pure none
  | .object [.index (some type)] => do
    return (← convertWithin setting false type).map (.callOne "objectOf")
  | .object members => do
    return some (.call "shape" [.object (← convertMembers setting members)])
  | .union types => do return choice types (← convertTypes setting types)
  | .intersection types => do return choice types (← convertTypes setting types)
  | .parenthesized inner =>
    if inParentheses then pure none else convertWithin setting true inner
  | .other _ => pure none

/-- The validators of those types that have one. -/
def convertTypes (setting : Setting) : List TypeExpr → Traced (List Validator)
  | [] => pure []
  | type :: types => do
    let v ← convertWithin setting false type
    return v.toList ++ (← convertTypes setting types)

/-- The entries of those members that are properties and have a validator. -/
def convertMembers (setting : Setting) : List Member → Traced (List Assignment)
  | [] => pure []
  | .property p :: members => do
    let entry ← convertProperty setting p
    return entry.toList ++ (← convertMembers setting members)
  | _ :: members => convertMembers setting members

/-- The entry of a property; none, with a record, if it has no validator. -/
def convertProperty (setting : Setting) : Property → Traced (Option Assignment)
  | .mk key none _ => do
    Traced.skip (.unannotated key.name)
    return none
  | .mk key (some type) optional => do
    match ← convertWithin setting false type with
    | some v => return some (.mk key (v.require optional))
    | none =>
      Traced.skip (.unsupported key.name type.kind)
      return none

end

def convert (setting : Setting) (type : TypeExpr) : Traced (Option Validator) :=
  convertWithin setting false type

/-- The entries of those properties that have a validator, in order. -/
def convertProperties (setting : Setting) : List Property → Traced (List Assignment)
  | [] => pure []
  | p :: properties => do
    let entry ← convertProperty setting p
    return entry.toList ++ (← convertProperties setting properties)

/-- The entries of all selected groups in the order of selection. A name that is not declared
gives no entry but a record. -/
def convertSelection (setting : Setting) (groups : Groups) :
    (names : List Text) → Traced (List Assignment)
  | [] => pure []
  | name :: names => do
    match groups.lookup name with
    | some properties =>
      let entries ← convertProperties setting properties
      return entries ++ (← convertSelection setting groups names)
    | none =>
      Traced.skip (.undeclared name)
      convertSelection setting groups names

end PropValidators
