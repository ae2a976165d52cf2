import PropValidators.Document.Name
import PropValidators.Validator
/-!
Validators and assignments as documents write them.
-/
namespace PropValidators

mutual

/-- A validator written out with every field. -/
def Validator.toJson : Validator → Json
  | .member name => .ofKind "member" [Json.member "name" (.string name)]
  | .call factory arguments =>
    .ofKind "call"
      [Json.member "factory" (.string factory),
       Json.member "args" (.array (Argument.listToJson arguments))]
  | .required v => .ofKind "required" [Json.member "validator" v.toJson]

def Argument.toJson : Argument → Json
  | .validator v => v.toJson
  | .array elements =>
    .ofKind "array_literal" [Json.member "elements" (.array (Element.listToJson elements))]
  | .object properties =>
    .ofKind "object_literal" [Json.member "properties" (.array (Assignment.listToJson properties))]

def Argument.listToJson : List Argument → List Json
  | [] => []
  | argument :: arguments => argument.toJson :: Argument.listToJson arguments

def Element.toJson : Element → Json
  | .validator v => v.toJson
  | .literal value => value.toDocument

def Element.listToJson : List Element → List Json
  | [] => []
  | element :: elements => element.toJson :: Element.listToJson elements

def Assignment.toJson : Assignment → Json
  | .mk key value => .object [Json.member "key" key.toJson, Json.member "value" value.toJson]

def Assignment.listToJson : List Assignment → List Json
  | [] => []
  | assignment :: assignments => assignment.toJson :: Assignment.listToJson assignments

end

mutual

/-- The members of a validator of a given kind, none if there is no such kind of validator. -/
def Validator.checkKind? (kind : String) (members : Members) : Option (Checked Validator) :=
  match kind with
  | "member" =>
    some ((Validator.member
      <$> Members.required members "name" (fun j _ => j.checkText)).underName "member")
  | "call" =>
    some ((Validator.call
      <$> Members.required members "factory" (fun j _ => j.checkText)
      <*> Members.optional members "args" [] (fun j _ =>
            j.checkList fun item _ => Argument.check item)).underName "call")
  | "required" =>
    some ((Validator.required
      <$> Members.required members "validator" (fun j _ => Validator.check j)).underName "required")
  | _ => none
termination_by (sizeOf members, 0)
decreasing_by all_goals simp only [Prod.lex_def]; omega

/-- The validator that a document stands for. -/
def Validator.check : Json → Checked Validator
  | .object members =>
    match Members.kind members with
    | .ok kind => (Validator.checkKind? kind members).getD (.fault .kindUnknown)
    | .error cause => .fault cause
  | _ => .fault .notVariant
termination_by j => (sizeOf j, 0)
decreasing_by all_goals simp only [Json.object.sizeOf_spec, Prod.lex_def]; omega

def Argument.check : Json → Checked Argument
  | .object members =>
    match Members.kind members with
    | .ok "array_literal" =>
      (Argument.array
        <$> Members.optional members "elements" [] (fun j _ =>
              j.checkList fun item _ => Element.check item)).underName "array_literal"
    | .ok "object_literal" =>
      (Argument.object
        <$> Members.optional members "properties" [] (fun j _ =>
              j.checkList fun item _ => Assignment.check item)).underName "object_literal"
    | .ok kind =>
      ((Validator.checkKind? kind members).map (Argument.validator <$> ·)).getD
        (.fault .kindUnknown)
    | .error cause => .fault cause
  | _ => .fault .notVariant
termination_by j => (sizeOf j, 0)
decreasing_by all_goals simp only [Json.object.sizeOf_spec, Prod.lex_def]; omega

def Element.check : Json → Checked Element
  | .object members =>
    match Members.kind members with
    | .ok "value" => (Element.literal <$> Literal.checkMembers members).underName "value"
    | .ok kind =>
      ((Validator.checkKind? kind members).map (Element.validator <$> ·)).getD
        (.fault .kindUnknown)
    | .error cause => .fault cause
  | _ => .fault .notVariant
termination_by j => (sizeOf j, 0)
decreasing_by all_goals simp only [Json.object.sizeOf_spec, Prod.lex_def]; omega

def Assignment.check : Json → Checked Assignment
  | .object members =>
    Assignment.mk
      <$> Members.required members "key" (fun j _ => PropertyKey.check j)
      <*> Members.required members "value" (fun j _ => Validator.check j)
  | _ => .fault .notRecord
termination_by j => (sizeOf j, 0)
decreasing_by all_goals simp only [Json.object.sizeOf_spec, Prod.lex_def]; omega

end

def Assignment.checkList (j : Json) : Checked (List Assignment) :=
  j.checkList fun item _ => Assignment.check item

end PropValidators
