import PropValidators.Proofs.Conversion.Lookups
/-!
The search for omissions beside conversion: both look up the same names, and the records of
conversion are those of the search with one more for each omission, which stands at the stop that
is omitted.
-/
namespace PropValidators

/-- The records of converting the type of a property. -/
def Property.nestedSkips (setting : Setting) (p : Property) : List Skip :=
  p.type.elim [] fun type => (convert setting type).skips

namespace Stop

/-- The record of a stop itself: of a name that is not declared, or of a property without an
entry. -/
def skip? (setting : Setting) : Stop → Option Skip
  | undeclared group => some (.undeclared group)
  | property _ p => p.skip? setting

/-- The records from beneath a stop. -/
def nestedSkips (setting : Setting) : Stop → List Skip
  | undeclared _ => []
  | property _ p => p.nestedSkips setting

/-- All records of a stop, its own behind those from beneath it. -/
def skips (setting : Setting) (stop : Stop) : List Skip :=
  stop.nestedSkips setting ++ (stop.skip? setting).toList

end Stop

variable {setting : Setting}

/-! ### One stop -/

end PropValidators
