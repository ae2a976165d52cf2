import PropValidators.Text.DecimalDigit
import PropValidators.Text.Split
import PropValidators.Yaml.Timestamp
import PropValidators.Yaml.Token
/-!
What a scalar of a YAML text stands for: the type that a plain scalar has by its form, and whether
a text can be read as a value of a type.
-/
namespace PropValidators.Yaml

/-- The type of a node. `merge` and `value` are the types of the keys `<<` and `=`. -/
inductive Tag where
  | null
  | bool
  | int
  | float
  | string
  | binary
  | timestamp
  | sequence
  | mapping
  | set
  | orderedMap
  | pairs
  | merge
  | value
  | unknown
  deriving DecidableEq, Repr

def Tag.ofUri (uri : String) : Tag :=
  match uri with
  | "tag:yaml.org,2002:null" => null
  | "tag:yaml.org,2002:bool" => bool
  | "tag:yaml.org,2002:int" => int
  | "tag:yaml.org,2002:float" => float
  | "tag:yaml.org,2002:str" => string
  | "tag:yaml.org,2002:binary" => binary
  | "tag:yaml.org,2002:timestamp" => timestamp
  | "tag:yaml.org,2002:seq" => sequence
  | "tag:yaml.org,2002:map" => mapping
  | "tag:yaml.org,2002:set" => set
  | "tag:yaml.org,2002:omap" => orderedMap
  | "tag:yaml.org,2002:pairs" => pairs
  | "tag:yaml.org,2002:merge" => merge
  | "tag:yaml.org,2002:value" => value
  | _ => unknown

namespace Scalar

/-! ### Forms of plain scalars -/

def isDigitOrJoint (c : Char) : Bool := c.isDigit || c = '_'

def unsigned : List Char → List Char
  | '+' :: rest | '-' :: rest => rest
  | cs => cs

/-- Digits in groups of sixty after the first colon: one digit, or two below sixty. -/
def isSixtieth : List Char → Bool
  | [a] => a.isDigit
  | [a, b] => '0' ≤ a && a ≤ '5' && b.isDigit
  | _ => false

/-- The form of an integer: binary, octal, decimal, hexadecimal, or in groups of sixty. -/
def isInteger (cs : List Char) : Bool :=
  match unsigned cs with
  | '0' :: rest =>
    rest.all (fun c => ('0' ≤ c && c ≤ '7') || c = '_') ||
      (match rest with
      | 'b' :: d :: ds => (d :: ds).all fun c => c = '0' || c = '1' || c = '_'
      | 'x' :: d :: ds => (d :: ds).all fun c => (Digits.hexValue? c).isSome || c = '_'
      | _ => false)
  | c :: rest =>
    c.isDigit &&
      (match Split.parts ':' rest with
      | [] => false
      | first :: others => first.all isDigitOrJoint && others.all isSixtieth)
  | [] => false

/-- The form of an exponent, which has a sign; no exponent is one too. -/
def isExponent : List Char → Bool
  | [] => true
  | c :: sign :: d :: ds =>
    (c = 'e' || c = 'E') && (sign = '+' || sign = '-') && (d :: ds).all Char.isDigit
  | _ => false

/-- The form of a fraction after its point, with an exponent if one follows. -/
def isFraction (cs : List Char) : Bool := isExponent (cs.dropWhile isDigitOrJoint)

/-- The form of a number with a point, of an infinity, or of what is not a number. -/
def isFloat (cs : List Char) : Bool :=
  let body := unsigned cs
  ([".inf", ".Inf", ".INF"].any fun word => body = word.toList) ||
    ([".nan", ".NaN", ".NAN"].any fun word => cs = word.toList) ||
    (match cs with
    | '.' :: c :: rest => c.isDigit && isFraction rest
    | _ => false) ||
    (match body with
    | c :: rest =>
      c.isDigit &&
        (match rest.dropWhile isDigitOrJoint with
        | '.' :: rest => isFraction rest
        | ':' :: rest =>
          let groups := Split.parts ':' (rest.takeWhile (· ≠ '.'))
          groups.all isSixtieth &&
            (match rest.dropWhile (· ≠ '.') with
            | _ :: rest => rest.all isDigitOrJoint
            | [] => false)
        | _ => false)
    | [] => false)

def trueWords : List String := ["yes", "Yes", "YES", "true", "True", "TRUE", "on", "On", "ON"]

def falseWords : List String := ["no", "No", "NO", "false", "False", "FALSE", "off", "Off", "OFF"]

def nullWords : List String := ["", "~", "null", "Null", "NULL"]

/-- The type that a plain scalar has by its form. -/
def tagOfChars (cs : List Char) : Tag :=
  let s := String.ofList cs
  if trueWords.contains s || falseWords.contains s then .bool
  else if isFloat cs then .float
  else if isInteger cs then .int
  else if s = "<<" then .merge
  else if nullWords.contains s then .null
  else if (Timestamp.read? true cs).isSome then .timestamp
  else if s = "=" then .value
  else .string

def tagOf (text : Text) : Tag := (text.toChars?.map tagOfChars).getD .string

/-! ### Reading a text as a value of a type -/

def isBlankChar (c : Char) : Bool :=
  c = ' ' || ('\t' ≤ c && c ≤ '\r') || ('\x1c' ≤ c && c ≤ '\x1f') || c = '\x85' || c = '\xa0' ||
    c = '\u1680' || ('\u2000' ≤ c && c ≤ '\u200a') || c = '\u2028' || c = '\u2029' ||
    c = '\u202f' || c = '\u205f' || c = '\u3000'

def trimmed (cs : List Char) : List Char :=
  ((cs.dropWhile isBlankChar).reverse.dropWhile isBlankChar).reverse

/-- The value of a digit: a decimal one of any script, or a letter. -/
def digitValue? (c : Char) : Option Nat := (Digits.hexValue? c).or (DecimalDigit.value? c)

/-- The digits of a numeral to a base without the letter that may say the base. -/
def withoutBase (base : Nat) : List Char → List Char
  | '0' :: c :: rest =>
    if (base, c.toLower) ∈ [(2, 'b'), (8, 'o'), (16, 'x')] then rest else '0' :: c :: rest
  | cs => cs

/-- The most digits of a numeral to base ten that is converted. -/
def maxDecimalDigits : Nat := 4300

/-- Whether a text is a numeral to a base, with blanks around it and a sign if it has them. -/
def isNumeral (base : Nat) (cs : List Char) : Bool :=
  let digits := withoutBase base (unsigned (trimmed cs))
  !digits.isEmpty && digits.all (fun c => (digitValue? c).any (· < base)) &&
    (base ≠ 10 || digits.length ≤ maxDecimalDigits)

/-- Whether a text is a decimal number, with blanks around it and a sign if it has them. -/
def isDecimal (cs : List Char) : Bool :=
  let body := unsigned (trimmed cs)
  let (whole, rest) := body.span DecimalDigit.isDigit
  let (fraction, rest) := match rest with
    | '.' :: rest => rest.span DecimalDigit.isDigit
    | rest => ([], rest)
  let exponent := match rest with
    | [] => true
    | c :: rest =>
      (c = 'e' || c = 'E') && !(unsigned rest).isEmpty && (unsigned rest).all DecimalDigit.isDigit
  ["inf", "infinity", "nan"].contains (String.ofList body) ||
    (!(whole.isEmpty && fraction.isEmpty) && exponent)

/-- Why a text is no integer. -/
def integerBreakdown? (cs : List Char) : Option Breakdown :=
  let joined := cs.filter (· ≠ '_')
  match unsigned joined with
  | [] => some .emptyNumber
  | ['0'] => none
  | '0' :: 'b' :: rest => if isNumeral 2 rest then none else some .unreadableNumber
  | '0' :: 'x' :: rest => if isNumeral 16 rest then none else some .unreadableNumber
  | '0' :: rest => if isNumeral 8 ('0' :: rest) then none else some .unreadableNumber
  | body => if (Split.parts ':' body).all (isNumeral 10) then none else some .unreadableNumber

def floatBreakdown? (cs : List Char) : Option Breakdown :=
  let joined := (cs.filter (· ≠ '_')).map Char.toLower
  let body := unsigned joined
  if joined.isEmpty then some .emptyNumber
  else if body = ".inf".toList ∨ body = ".nan".toList then none
  else if (Split.parts ':' body).all isDecimal then none
  else some .unreadableNumber

def timestampBreakdown? (cs : List Char) : Option Breakdown :=
  match Timestamp.read? false cs with
  | some t => if t.isPossible then none else some .impossibleTimestamp
  | none => some .unreadableTimestamp

/-- Whether the digits of a text to base 64 come in fours, with padding after the last ones.
`place` counts the digits of the current four, `pads` the marks of padding in a row. -/
def isBase64 (place pads : Nat) : List Char → Bool
  | [] => place = 0
  | c :: rest =>
    if c = '=' then
      if 2 ≤ place ∧ 4 ≤ place + pads + 1 then true
      else isBase64 place (if 2 ≤ place then pads + 1 else pads) rest
    else if c.isAlphanum ∨ c = '+' ∨ c = '/' then isBase64 ((place + 1) % 4) 0 rest
    else isBase64 place pads rest

def isBinary (cs : List Char) : Bool := cs.all (·.toNat < 0x80) && isBase64 0 0 cs

def truthValue? (text : Text) : Option Bool := do
  let word := String.ofList ((← text.toChars?).map Char.toLower)
  if trueWords.contains word then some true
  else if falseWords.contains word then some false
  else none

/-- Why a text cannot be read as a value of a type. A surrogate is part of strings only. -/
def failure? (tag : Tag) (text : Text) : Option Failure :=
  match tag with
  | .null | .string => none
  | .bool => if (truthValue? text).isSome then none else some (.brokenOff .unknownTruthValue)
  | .int => (text.toChars?.elim (some .unreadableNumber) integerBreakdown?).map .brokenOff
  | .float => (text.toChars?.elim (some .unreadableNumber) floatBreakdown?).map .brokenOff
  | .timestamp =>
    (text.toChars?.elim (some .unreadableTimestamp) timestampBreakdown?).map .brokenOff
  | .binary => if text.toChars?.any isBinary then none else some .malformed
  | .sequence | .mapping | .set | .orderedMap | .pairs | .merge | .value | .unknown =>
    some .malformed

end Scalar

end PropValidators.Yaml
