import PropValidators.Validator
/-!
References to types of the framework, recognised by name. A name is compared as dotted text: bare,
under the framework's own name, or under the name that the framework is imported as.
-/
namespace PropValidators

/-- Whether a name stands for a type of the framework: bare, or under `React` or the import name. -/
def isFrameworkType (name type importName : Text) : Bool :=
  name = type || name = "React." ++ type || name = importName ++ "." ++ type

/-- One rule for references: which names it covers and the validator it gives them. -/
structure ReferenceRule where
  description : String
  covers : (name importName : Text) → Bool
  validator : Validator

namespace ReferenceRule

/-- The types of what a component can render. -/
def nodeTypes : List Text :=
  ["ReactText", "ReactNode", "ReactType", "ComponentType", "ComponentClass", "StatelessComponent"]

/-- The types of single elements. -/
def elementTypes : List Text := ["ReactElement", "SFCElement"]

def node : ReferenceRule where
  description := "node"
  covers name importName := nodeTypes.any (isFrameworkType name · importName)
  validator := .member "node"

def element : ReferenceRule where
  description := "element"
  covers name importName :=
    isFrameworkType name "Element" "JSX" || elementTypes.any (isFrameworkType name · importName)
  validator := .member "element"

def ref : ReferenceRule where
  description := "ref"
  covers name importName := isFrameworkType name "Ref" importName
  validator := .callArray "oneOfType"
    [.validator (.member "string"), .validator (.member "func"), .validator (.member "object")]

def handler : ReferenceRule where
  description := "handler"
  covers name _ := ("Handler" : Text).isSuffixOf name
  validator := .member "func"

def event : ReferenceRule where
  description := "event"
  covers name _ := ("Event" : Text).isSuffixOf name
  validator := .member "object"

/-- All rules, the first that covers a name being the one that counts. -/
def all : List ReferenceRule := [node, element, ref, handler, event]

end ReferenceRule

/-- The rules that cover a name. -/
def matchingRules (name importName : Text) : List ReferenceRule :=
  ReferenceRule.all.filter fun rule => rule.covers name importName

/-- The validator of a reference, none if no rule covers its name. -/
def validatorOfReference (name importName : Text) : Option Validator :=
  (ReferenceRule.all.find? fun rule => rule.covers name importName).map (·.validator)

end PropValidators
