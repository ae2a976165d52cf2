import PropValidators.TypeExpr
/-!
Validator expressions: what conversion produces for a property, and the assignments that make up
a shape.
-/
namespace PropValidators

mutual

/-- A validator: a named one, a call of a factory, or another one marked as required. -/
inductive Validator where
  | member (name : JoinedText)
  | call (factory : JoinedText) (arguments : List Argument)
  | required (validator : Validator)

inductive Argument where
  | validator (value : Validator)
  | array (elements : List Element)
  | object (properties : List Assignment)

inductive Element where
  | validator (value : Validator)
  | literal (value : Literal)

/-- One entry of a shape: a key and the validator of its value. -/
inductive Assignment where
  | mk (key : PropertyKey) (value : Validator)

end

instance : Inhabited Validator := ⟨.member ""⟩

namespace Assignment

def key : Assignment → PropertyKey
  | mk key _ => key

def value : Assignment → Validator
  | mk _ value => value

end Assignment

namespace Validator

/-- A validator as it is if it is optional, else marked as required. -/
def require (v : Validator) (optional : Option Bool) : Validator :=
  if optional = some true then v else required v

def callOne (factory : JoinedText) (v : Validator) : Validator := call factory [.validator v]

def callArray (factory : JoinedText) (elements : List Element) : Validator :=
  call factory [.array elements]

mutual

/-- The number of calls, marks and entries on the longest way into a validator. -/
def height : Validator → Nat
  | member _ => 0
  | call _ arguments => heightOfArguments arguments + 1
  | required v => height v + 1

def heightOfArguments : List Argument → Nat
  | [] => 0
  | .validator v :: arguments => max (height v) (heightOfArguments arguments)
  | .array elements :: arguments => max (heightOfElements elements) (heightOfArguments arguments)
  | .object properties :: arguments =>
    max (heightOfAssignments properties) (heightOfArguments arguments)

def heightOfElements : List Element → Nat
  | [] => 0
  | .validator v :: elements => max (height v) (heightOfElements elements)
  | .literal _ :: elements => heightOfElements elements

def heightOfAssignments : List Assignment → Nat
  | [] => 0
  | .mk _ v :: assignments => max (height v + 1) (heightOfAssignments assignments)

end

mutual

/-- Whether a literal that is not a number stands anywhere in a validator. -/
def hasNaN : Validator → Bool
  | member _ => false
  | call _ arguments => argumentsHaveNaN arguments
  | required v => hasNaN v

def argumentsHaveNaN : List Argument → Bool
  | [] => false
  | .validator v :: arguments => hasNaN v || argumentsHaveNaN arguments
  | .array elements :: arguments => elementsHaveNaN elements || argumentsHaveNaN arguments
  | .object properties :: arguments => assignmentsHaveNaN properties || argumentsHaveNaN arguments

def elementsHaveNaN : List Element → Bool
  | [] => false
  | .validator v :: elements => hasNaN v || elementsHaveNaN elements
  | .literal value :: elements => value.isNaN || elementsHaveNaN elements

def assignmentsHaveNaN : List Assignment → Bool
  | [] => false
  | .mk (.literal key) v :: assignments => key.isNaN || hasNaN v || assignmentsHaveNaN assignments
  | .mk (.identifier _) v :: assignments => hasNaN v || assignmentsHaveNaN assignments

end

end Validator

end PropValidators
