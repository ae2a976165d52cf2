import PropValidators.Json.Basic
import PropValidators.Number.Shortest
/-!
The compact text of a JSON document, on one line and in ASCII only.
-/
namespace PropValidators.Json

/-- The escape of a UTF-16 code unit. -/
def escapeUnit (unit : Nat) : List Char := '\\' :: 'u' :: Digits.hex 4 unit

/-- A code point inside a string literal. -/
def escape (p : CodePoint) : List Char :=
  match p with
  | .surrogate _ => escapeUnit p.toNat
  | .char c =>
    if c = '"' then ['\\', '"']
    else if c = '\\' then ['\\', '\\']
    else if c = '\n' then ['\\', 'n']
    else if c = '\r' then ['\\', 'r']
    else if c = '\t' then ['\\', 't']
    else if c = '\x08' then ['\\', 'b']
    else if c = '\x0c' then ['\\', 'f']
    else if 0x20 ≤ c.toNat ∧ c.toNat ≤ 0x7E then [c]
    else if c.toNat < 0x10000 then escapeUnit c.toNat
    else
      escapeUnit (0xD800 + (c.toNat - 0x10000) / 0x400) ++
        escapeUnit (0xDC00 + (c.toNat - 0x10000) % 0x400)

def literal (t : Text) : List Char := '"' :: t.flatMap escape ++ ['"']

/-- A number, or the word for one that is not finite. -/
def floatLiteral : Binary64 → List Char
  | .infinite false => "Infinity".toList
  | .infinite true => "-Infinity".toList
  | .nan => "NaN".toList
  | x => x.text

mutual

/-- The compact text of a document. -/
def print : Json → List Char
  | null => "null".toList
  | bool b => if b then "true".toList else "false".toList
  | int n => Digits.ofInt n
  | float x => floatLiteral x
  | string t => literal t.points
  | array items => '[' :: printItems items ++ [']']
  | object members => '{' :: printMembers members ++ ['}']

def printItems : List Json → List Char
  | [] => []
  | [item] => print item
  | item :: items => print item ++ ',' :: printItems items

def printMembers : List (JoinedText × Json) → List Char
  | [] => []
  | [(name, value)] => literal name.points ++ ':' :: print value
  | (name, value) :: members =>
    literal name.points ++ ':' :: print value ++ ',' :: printMembers members

end

def compact (j : Json) : String := String.ofList j.print

end PropValidators.Json
