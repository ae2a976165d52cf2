import PropValidators.Text.Split
/-!
Paths as names in a row. Empty names and names of one dot say nothing and are dropped; a name of
two dots stays, as what it leads to depends on the files.
-/
namespace PropValidators

structure Path where
  absolute : Bool
  names : List String
  deriving DecidableEq, Repr, Inhabited

namespace Path

/-- The path that a text writes, with slashes between the names. -/
def ofString (s : String) : Path :=
  let parts := (Split.parts '/' s.toList).map String.ofList
  ⟨s.toList.head? = some '/', parts.filter fun name => name ≠ "" ∧ name ≠ "."⟩

/-- The text of a path, one dot for the working directory. -/
def text (p : Path) : String :=
  let names := "/".intercalate p.names
  if p.absolute then "/" ++ names else if p.names.isEmpty then "." else names

def parent (p : Path) : Path := { p with names := p.names.dropLast }

def child (p : Path) (name : String) : Path := { p with names := p.names ++ [name] }

/-- Whether a path has the character that no name of a file can have. -/
def hasNul (p : Path) : Bool := p.names.any fun name => name.toList.contains '\x00'

/-- Whether no name of a path is two dots, so that each name leads one level down. -/
def isDirect (p : Path) : Bool := !p.names.contains ".."

end Path

end PropValidators
