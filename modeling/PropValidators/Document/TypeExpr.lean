import PropValidators.Document.Name
/-!
Type expressions, members and property signatures as documents write them: written out with every
field, and checked with defaults for those that may be left out.
-/
namespace PropValidators

/-- The least integer of 64 bits. -/
def leastWord : Int := -0x8000000000000000

/-- A truth value or null, by the words and numbers that stand for one. -/
def Json.checkFlag : Json → Checked (Option Bool)
  | .null => .valid none
  | .bool b => .valid (some b)
  | .int n => ofInt n
  | .float x =>
    match x.toInt? with
    | some n => if leastWord < n then ofInt n else .fault .notBoolean
    | none => .fault .notBoolean
  | .string t =>
    match t.points.toString? with
    | some s =>
      if ["0", "off", "f", "false", "n", "no"].contains s.toLower then .valid (some false)
      else if ["1", "on", "t", "true", "y", "yes"].contains s.toLower then .valid (some true)
      else .fault .unreadableBoolean
    | none => .fault .unpairedSurrogate
  | _ => .fault .notBoolean
where
  /-- Zero and one stand for truth values; other numbers of 64 bits might have. -/
  ofInt (n : Int) : Checked (Option Bool) :=
    if n = 0 then .valid (some false)
    else if n = 1 then .valid (some true)
    else if leastWord ≤ n ∧ n < -leastWord then .fault .unreadableBoolean
    else .fault .notBoolean

/-- The document of a flag that may be absent. -/
def Json.ofFlag : Option Bool → Json
  | some b => .bool b
  | none => .null

mutual

/-- A type expression written out with every field. -/
def TypeExpr.toJson : TypeExpr → Json
  | .string => .ofKind "string" []
  | .number => .ofKind "number" []
  | .boolean => .ofKind "boolean" []
  | .symbol => .ofKind "symbol" []
  | .function => .ofKind "function" []
  | .reference name arguments =>
    .ofKind "reference"
      [Json.member "type_name" name.toJson,
       Json.member "type_arguments" (.array (TypeExpr.listToJson arguments))]
  | .array element => .ofKind "array" [Json.member "element_type" element.toJson]
  | .literal value => .ofKind "literal" [Json.member "literal" value.toDocument]
  | .object members =>
    .ofKind "type_literal" [Json.member "members" (.array (Member.listToJson members))]
  | .union types => .ofKind "union" [Json.member "types" (.array (TypeExpr.listToJson types))]
  | .intersection types =>
    .ofKind "intersection" [Json.member "types" (.array (TypeExpr.listToJson types))]
  | .parenthesized inner => .ofKind "parenthesized" [Json.member "type_annotation" inner.toJson]
  | .other description => .ofKind "other" [Json.member "description" (.string description)]

def TypeExpr.listToJson : List TypeExpr → List Json
  | [] => []
  | type :: types => type.toJson :: TypeExpr.listToJson types

def Member.toJson : Member → Json
  | .property signature => signature.toJson
  | .index none => .ofKind "index" [Json.member "type_annotation" .null]
  | .index (some type) => .ofKind "index" [Json.member "type_annotation" type.toJson]
  | .method key => .ofKind "method" [Json.member "key" key.toJson]

def Member.listToJson : List Member → List Json
  | [] => []
  | member :: members => member.toJson :: Member.listToJson members

def Property.toJson : Property → Json
  | .mk key none optional =>
    .ofKind "property"
      [Json.member "key" key.toJson, Json.member "type_annotation" .null,
       Json.member "optional" (.ofFlag optional)]
  | .mk key (some type) optional =>
    .ofKind "property"
      [Json.member "key" key.toJson, Json.member "type_annotation" type.toJson,
       Json.member "optional" (.ofFlag optional)]

end

mutual

def TypeExpr.check : Json → Checked TypeExpr
  | .object members =>
    match Members.kind members with
    | .ok "string" => .valid .string
    | .ok "number" => .valid .number
    | .ok "boolean" => .valid .boolean
    | .ok "symbol" => .valid .symbol
    | .ok "function" => .valid .function
    | .ok "reference" =>
      (TypeExpr.reference
        <$> Members.required members "type_name" (fun j _ => EntityName.check j)
        <*> Members.optional members "type_arguments" [] (fun j _ =>
              j.checkList fun item _ => TypeExpr.check item)).underName "reference"
    | .ok "array" =>
      (TypeExpr.array
        <$> Members.required members "element_type" (fun j _ => TypeExpr.check j)).underName "array"
    | .ok "literal" =>
      (TypeExpr.literal
        <$> Members.required members "literal" (fun j _ =>
              Literal.checkRecord j)).underName "literal"
    | .ok "type_literal" =>
      (TypeExpr.object
        <$> Members.optional members "members" [] (fun j _ =>
              j.checkList fun item _ => Member.check item)).underName "type_literal"
    | .ok "union" =>
      (TypeExpr.union
        <$> Members.optional members "types" [] (fun j _ =>
              j.checkList fun item _ => TypeExpr.check item)).underName "union"
    | .ok "intersection" =>
      (TypeExpr.intersection
        <$> Members.optional members "types" [] (fun j _ =>
              j.checkList fun item _ => TypeExpr.check item)).underName "intersection"
    | .ok "parenthesized" =>
      (TypeExpr.parenthesized
        <$> Members.required members "type_annotation" (fun j _ => TypeExpr.check j)).underName
          "parenthesized"
    | .ok "other" =>
      (TypeExpr.other
        <$> Members.optional members "description" "" (fun j _ => j.checkText)).underName "other"
    | .ok _ => .fault .kindUnknown
    | .error cause => .fault cause
  | _ => .fault .notVariant
termination_by j => (sizeOf j, 0)
decreasing_by all_goals simp only [Json.object.sizeOf_spec, Prod.lex_def]; omega

def TypeExpr.checkOrNull : Json → Checked (Option TypeExpr)
  | .null => .valid none
  | j => some <$> TypeExpr.check j
termination_by j => (sizeOf j, 1)
decreasing_by exact Prod.Lex.right _ Nat.zero_lt_one

def Member.check : Json → Checked Member
  | .object members =>
    match Members.kind members with
    | .ok "property" => (Member.property <$> Property.checkMembers members).underName "property"
    | .ok "index" =>
      (Member.index
        <$> Members.optional members "type_annotation" none (fun j _ =>
              TypeExpr.checkOrNull j)).underName "index"
    | .ok "method" =>
      (Member.method
        <$> Members.required members "key" (fun j _ => PropertyKey.check j)).underName "method"
    | .ok _ => .fault .kindUnknown
    | .error cause => .fault cause
  | _ => .fault .notVariant
termination_by j => (sizeOf j, 0)
decreasing_by all_goals simp only [Json.object.sizeOf_spec, Prod.lex_def]; omega

def Property.checkMembers (members : Members) : Checked Property :=
  Property.mk
    <$> Members.required members "key" (fun j _ => PropertyKey.check j)
    <*> Members.optional members "type_annotation" none (fun j _ => TypeExpr.checkOrNull j)
    <*> Members.optional members "optional" none (fun j _ => j.checkFlag)
termination_by (sizeOf members, 2)
decreasing_by all_goals simp only [Prod.lex_def]; omega

end

def Property.check : Json → Checked Property
  | .object members =>
    .combine (fun _ p => p) (Members.fixedKind members "property") (Property.checkMembers members)
  | _ => .fault .notRecord

def Property.checkList (j : Json) : Checked (List Property) :=
  j.checkList fun item _ => Property.check item

end PropValidators
