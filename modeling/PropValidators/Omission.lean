import PropValidators.Conversion
/-!
Reports of what conversion leaves out of the selected groups.
-/
namespace PropValidators

/-- Why nothing is emitted for a selected group or property. -/
inductive OmissionReason where
  | undeclared
  | unannotated
  | unsupported (kind : String)
  deriving DecidableEq, Repr

def OmissionReason.message : OmissionReason → String
  | undeclared => "type not declared"
  | unannotated => "missing type annotation"
  | unsupported kind => s!"unsupported type '{kind}'"

/-- A group, or a property of a group, that has no validator. -/
structure Omission where
  group : Text
  property : Option Text
  reason : OmissionReason
  deriving DecidableEq, Repr

def Omission.message (o : Omission) : Text :=
  match o.property with
  | none => "type '" ++ o.group ++ "': " ++ o.reason.message
  | some property =>
    "type '" ++ o.group ++ "', property '" ++ property ++ "': " ++ o.reason.message

/-- The omission of a property of a group, if it has no validator. -/
def omissionOf (setting : Setting) (group : Text) (p : Property) : Traced (Option Omission) :=
  match p.type with
  | none => pure (some ⟨group, some p.name, .unannotated⟩)
  | some type => do
    match ← convert setting type with
    | some _ => return none
    | none => return some ⟨group, some p.name, .unsupported type.kind⟩

def omissionsOf (setting : Setting) (group : Text) : List Property → Traced (List Omission)
  | [] => pure []
  | p :: properties => do
    let omission ← omissionOf setting group p
    return omission.toList ++ (← omissionsOf setting group properties)

/-- Every selected group that is not declared and every selected property without a validator, in
the order of selection. -/
def findOmissions (setting : Setting) (groups : Groups) :
    (names : List Text) → Traced (List Omission)
  | [] => pure []
  | name :: names => do
    match groups.lookup name with
    | some properties =>
      let omissions ← omissionsOf setting name properties
      return omissions ++ (← findOmissions setting groups names)
    | none => return ⟨name, none, .undeclared⟩ :: (← findOmissions setting groups names)

end PropValidators
