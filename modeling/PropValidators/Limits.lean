/-!
Limits of how large a document can be read or printed. What is beyond them is broken off, whatever
the document says.
-/
namespace PropValidators

/-- Limits, each of which may be absent. -/
structure Limits where
  /-- The most digits of an integer. -/
  digits : Option Nat := none
  /-- The most arrays and objects in one another. -/
  nesting : Option Nat := none
  /-- The most calls, marks and entries in one another, in validators. -/
  validators : Option Nat := none
  deriving DecidableEq, Repr

/-- A limit that is not kept. -/
inductive Overrun where
  | digits
  | nesting
  | validators
  deriving DecidableEq, Repr

namespace Limits

def unlimited : Limits := {}

def allowDigits (limits : Limits) (count : Nat) : Bool := limits.digits.all (count ≤ ·)

def allowNesting (limits : Limits) (count : Nat) : Bool := limits.nesting.all (count ≤ ·)

def allowValidators (limits : Limits) (count : Nat) : Bool := limits.validators.all (count ≤ ·)

@[simp] theorem unlimited_allowDigits (count : Nat) : unlimited.allowDigits count = true := rfl

@[simp] theorem unlimited_allowNesting (count : Nat) : unlimited.allowNesting count = true := rfl

@[simp] theorem unlimited_allowValidators (count : Nat) :
    unlimited.allowValidators count = true := rfl

end Limits

end PropValidators
