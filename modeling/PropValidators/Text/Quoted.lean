import PropValidators.Number.Digits
import PropValidators.Text.Basic
import PropValidators.Text.Printable
/-!
Text between quotes, as messages show it: single quotes unless they would have to be escaped and
double ones would not, and escapes for all characters that are not shown as they are.
-/
namespace PropValidators

namespace Quoted

/-- The escape of a code point by number, with as many digits as its size asks for. -/
def escapeByNumber (code : Nat) : List Char :=
  if code < 0x100 then '\\' :: 'x' :: Digits.hex 2 code
  else if code < 0x10000 then '\\' :: 'u' :: Digits.hex 4 code
  else '\\' :: 'U' :: Digits.hex 8 code

/-- A code point inside quotes of the given kind. -/
def escape (quote : Char) (p : CodePoint) : List Char :=
  match p with
  | .surrogate _ => escapeByNumber p.toNat
  | .char c =>
    if c = quote ∨ c = '\\' then ['\\', c]
    else if c = '\n' then ['\\', 'n']
    else if c = '\r' then ['\\', 'r']
    else if c = '\t' then ['\\', 't']
    else if Printable.isShown c.toNat then [c]
    else escapeByNumber c.toNat

def quoteOf (t : Text) : Char :=
  if t.contains (.char '\'') && !t.contains (.char '"') then '"' else '\''

/-- A text between quotes. -/
def text (t : Text) : List Char :=
  let quote := quoteOf t
  quote :: t.flatMap (escape quote) ++ [quote]

def string (s : String) : String := String.ofList (text (Text.ofString s))

end Quoted

/-- A text with its surrogates as escapes, which leaves a text without surrogates as it is. -/
def Text.escaped (t : Text) : String :=
  String.ofList (t.flatMap fun p =>
    match p with
    | .char c => [c]
    | .surrogate _ => Quoted.escapeByNumber p.toNat)

end PropValidators
