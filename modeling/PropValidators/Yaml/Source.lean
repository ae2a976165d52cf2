/-!
The characters of a YAML text with their places, and what the classes of characters are.
-/
namespace PropValidators.Yaml

/-- The character that stands for the end of a text; no text contains it. -/
def endMark : Char := '\x00'

def isBreak (c : Char) : Bool :=
  c = '\n' || c = '\r' || c = '\x85' || c = '\u2028' || c = '\u2029'

def isBreakOrEnd (c : Char) : Bool := c = endMark || isBreak c

def isGap (c : Char) : Bool := c = ' ' || c = '\t' || isBreakOrEnd c

def isWordChar (c : Char) : Bool := c.isAlphanum || c = '-' || c = '_'

/-- Whether a text may contain a character: no control but a tab or a line break, and neither of
the two that end the first plane. -/
def isAllowed (c : Char) : Bool :=
  let n := c.toNat
  n = 0x09 || n = 0x0A || n = 0x0D || (0x20 ≤ n && n ≤ 0x7E) || n = 0x85 ||
    (0xA0 ≤ n && n ≤ 0xFFFD) || 0x10000 ≤ n

/-- A character with its line, its column and its place in the text, all from zero. -/
structure Cell where
  char : Char
  line : Nat
  column : Nat
  index : Nat

/-- What is left of a text. A byte order mark takes no column. -/
abbrev Source := List Cell

namespace Source

/-- The rest of a text from a place on, closed by the end mark. -/
def ofCharsAt (line column index : Nat) : List Char → Source
  | [] => [⟨endMark, line, column, index⟩]
  | c :: rest =>
    let ends := isBreak c && !(c = '\r' && rest.head? = some '\n')
    let nextLine := if ends then line + 1 else line
    let nextColumn := if ends then 0 else if c = '\ufeff' then column else column + 1
    ⟨c, line, column, index⟩ :: ofCharsAt nextLine nextColumn (index + 1) rest

def ofChars (cs : List Char) : Source := ofCharsAt 0 0 0 cs

/-- The character at a distance from the front, the end mark beyond the end. -/
def peek (s : Source) (distance : Nat) : Char :=
  match s[distance]? with
  | some cell => cell.char
  | none => endMark

def front (s : Source) : Char := s.peek 0

def line (s : Source) : Nat := (s.head?.map Cell.line).getD 0

def column (s : Source) : Nat := (s.head?.map Cell.column).getD 0

def index (s : Source) : Nat := (s.head?.map Cell.index).getD 0

/-- The longest front of characters of a class, and the rest. -/
def span (p : Char → Bool) : Source → List Char × Source
  | [] => ([], [])
  | cell :: rest =>
    if p cell.char then (cell.char :: (span p rest).1, (span p rest).2) else ([], cell :: rest)

def skip (p : Char → Bool) (s : Source) : Source := (s.span p).2

/-- The text of a line break at the front and the rest: a line feed for all breaks but the two
that Unicode has of its own. -/
def takeBreak? : Source → Option (Char × Source)
  | [] => none
  | cell :: rest =>
    if cell.char = '\r' ∧ front rest = '\n' then some ('\n', rest.tail)
    else if cell.char = '\u2028' ∨ cell.char = '\u2029' then some (cell.char, rest)
    else if isBreak cell.char then some ('\n', rest)
    else none

/-- Whether a document marker of three equal characters stands at the front. -/
def startsWithMarker (s : Source) (c : Char) : Bool :=
  s.peek 0 = c && s.peek 1 = c && s.peek 2 = c && isGap (s.peek 3)

def startsWithAnyMarker (s : Source) : Bool := s.startsWithMarker '-' || s.startsWithMarker '.'

end Source

end PropValidators.Yaml
