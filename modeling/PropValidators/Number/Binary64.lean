import PropValidators.Number.Digits
/-!
Binary floating-point numbers of 64 bits, with the nearest one to a decimal.

A finite magnitude counts units of `2 ^ -1074`, the smallest positive number of the format, so
that all arithmetic on it stays in the natural numbers.
-/
namespace PropValidators

/-- A finite magnitude: `mantissa * 2 ^ shift` units of `2 ^ -1074`. -/
structure Magnitude where
  mantissa : Nat
  shift : Nat
  mantissa_lt : mantissa < Nat.pow 2 53
  shift_le : shift ≤ 2045
  normal : shift = 0 ∨ Nat.pow 2 52 ≤ mantissa
  deriving DecidableEq

/-- A binary floating-point number; all that are not a number count as one. -/
inductive Binary64 where
  | finite (negative : Bool) (magnitude : Magnitude)
  | infinite (negative : Bool)
  | nan
  deriving DecidableEq

namespace Magnitude

def unit : Nat := Nat.pow 2 1074

def zero : Magnitude := ⟨0, 0, by decide, by decide, Or.inl rfl⟩

instance : Inhabited Magnitude := ⟨zero⟩

/-- The magnitude in units of `2 ^ -1074`. -/
def units (x : Magnitude) : Nat := x.mantissa * Nat.pow 2 x.shift

/-- The magnitude of a mantissa and a shift, if they are those of one. -/
def ofParts? (mantissa shift : Nat) : Option Magnitude :=
  if h : mantissa < Nat.pow 2 53 ∧ shift ≤ 2045 ∧ (shift = 0 ∨ Nat.pow 2 52 ≤ mantissa) then
    some ⟨mantissa, shift, h.1, h.2.1, h.2.2⟩
  else none

/-- A quotient rounded to the nearest natural number, a half to the even one. -/
def roundDiv (num den : Nat) : Nat :=
  let q := num / den
  let r := 2 * (num % den)
  if r < den ∨ (r = den ∧ q % 2 = 0) then q else q + 1

/-- The magnitude nearest to `num / den`, ties to an even mantissa; none beyond the largest. -/
def nearest? (num den : Nat) : Option Magnitude :=
  let shift := (num * unit / den).log2 - 52
  let mantissa := roundDiv (num * unit) (den * Nat.pow 2 shift)
  if mantissa = Nat.pow 2 53 then ofParts? (Nat.pow 2 52) (shift + 1) else ofParts? mantissa shift

/-- The magnitude nearest to `digits * 10 ^ exponent`; none beyond the largest. -/
def ofDecimal? (digits : Nat) (exponent : Int) : Option Magnitude :=
  let size := exponent + (Digits.ofNat digits).length
  if digits = 0 ∨ size < -323 then some zero
  else if 309 < size then none
  else if exponent < 0 then nearest? digits (Nat.pow 10 exponent.natAbs)
  else nearest? (digits * Nat.pow 10 exponent.natAbs) 1

end Magnitude

namespace Binary64

instance : Inhabited Binary64 := ⟨nan⟩

/-- The number nearest to `± digits * 10 ^ exponent`, infinite beyond the largest magnitude. -/
def ofDecimal (negative : Bool) (digits : Nat) (exponent : Int) : Binary64 :=
  match Magnitude.ofDecimal? digits exponent with
  | some x => finite negative x
  | none => infinite negative

def isNaN : Binary64 → Bool
  | nan => true
  | _ => false

/-- The integer that a number without a fractional part stands for. -/
def toInt? : Binary64 → Option Int
  | finite negative x =>
    if x.units % Magnitude.unit = 0 then
      let n := x.units / Magnitude.unit
      some (if negative then -(n : Int) else n)
    else none
  | _ => none

end Binary64

end PropValidators
