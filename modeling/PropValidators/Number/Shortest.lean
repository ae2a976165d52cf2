import PropValidators.Number.Binary64
/-!
The decimal text of a floating-point number: the fewest digits that read back as it, positional
from `10 ^ -4` up to `10 ^ 16` and with an exponent elsewhere.
-/
namespace PropValidators

/-- The decimal number `digits * 10 ^ exponent`. -/
structure Decimal where
  digits : Nat
  exponent : Int
  deriving DecidableEq, Repr

namespace Decimal

/-- The same number without trailing zeros in its digits, as far as `fuel` goes. -/
def trimmed : (fuel : Nat) → Decimal → Decimal
  | 0, d => d
  | fuel + 1, d =>
    if d.digits ≠ 0 ∧ d.digits % 10 = 0 then trimmed fuel ⟨d.digits / 10, d.exponent + 1⟩ else d

/-- At least two digits of an exponent, after its sign. -/
def exponentText (e : Int) : List Char :=
  let digits := Digits.ofNat e.natAbs
  (if e < 0 then '-' else '+') :: (if digits.length < 2 then '0' :: digits else digits)

/-- Digits with a point after the first `point` of them, padded with zeros on either side. -/
def positional (digits : List Char) (point : Int) : List Char :=
  if point ≤ 0 then '0' :: '.' :: (List.replicate point.natAbs '0' ++ digits)
  else
    let whole := digits.take point.natAbs
    let fraction := digits.drop point.natAbs
    whole ++ List.replicate (point.natAbs - whole.length) '0' ++
      '.' :: (if fraction.isEmpty then ['0'] else fraction)

/-- One digit before the point, the others after it if there are any, then the exponent. -/
def scientific (digits : List Char) (exponent : Int) : List Char :=
  let fraction := digits.drop 1
  digits.take 1 ++ (if fraction.isEmpty then [] else '.' :: fraction) ++
    'e' :: exponentText exponent

/-- The text of a decimal: positional if its leading digit stands for `10 ^ -4` to `10 ^ 15`. -/
def text (d : Decimal) : List Char :=
  let digits := Digits.ofNat d.digits
  let point := d.exponent + digits.length
  if -4 < point ∧ point ≤ 16 then positional digits point else scientific digits (point - 1)

end Decimal

namespace Magnitude

/-- The exponent of the leading decimal digit of a positive magnitude. -/
def leadingExponent (x : Magnitude) : Int :=
  if unit ≤ x.units then ((Digits.ofNat (x.units / unit)).length : Int) - 1
  else -((Digits.ofNat (unit / x.units)).length : Int)

/-- The decimals with a last digit at `10 ^ exponent` on either side of a magnitude, the nearer
first; of two equally near, the one with an even last digit. -/
def neighbours (x : Magnitude) (exponent : Int) : List Decimal :=
  let num := if exponent < 0 then x.units * Nat.pow 10 exponent.natAbs else x.units
  let den := if exponent < 0 then unit else unit * Nat.pow 10 exponent.natAbs
  let below : Decimal := ⟨num / den, exponent⟩
  let above : Decimal := ⟨num / den + 1, exponent⟩
  let twice := 2 * (num % den)
  if twice < den ∨ (twice = den ∧ below.digits % 2 = 0) then [below, above] else [above, below]

def exactDecimal (x : Magnitude) : Decimal := ⟨x.units * Nat.pow 5 1074, -1074⟩

def readsBack (x : Magnitude) (d : Decimal) : Bool := ofDecimal? d.digits d.exponent = some x

/-- The decimal of fewest digits that reads back as the magnitude, the nearer one of two. Up to
seventeen digits are tried; the number in full closes the search. -/
def shortest (x : Magnitude) : Decimal :=
  let lead := x.leadingExponent
  let tried := (List.range 17).flatMap fun (n : Nat) => x.neighbours (lead - n)
  match tried.find? x.readsBack with
  | some d => d.trimmed 18
  | none => x.exactDecimal

def text (x : Magnitude) : List Char :=
  if x.mantissa = 0 then ['0', '.', '0'] else x.shortest.text

end Magnitude

/-- The text of a floating-point number, with the words for the values that are not finite. -/
def Binary64.text : Binary64 → List Char
  | .finite negative x => if negative then '-' :: x.text else x.text
  | .infinite negative => if negative then "-inf".toList else "inf".toList
  | .nan => "nan".toList

end PropValidators
