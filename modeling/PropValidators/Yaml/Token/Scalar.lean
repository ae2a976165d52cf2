import PropValidators.Number.Digits
import PropValidators.Yaml.Token
/-!
The scalars of a YAML text in their four forms: plain, single-quoted, double-quoted and block
scalars. Each is read from the front of a source; line breaks inside are folded.
-/
namespace PropValidators.Yaml

/-- What a single line break and the further breaks after it are folded into. -/
def foldedBreak (first : Char) (further : List Char) : List Char :=
  (if first ≠ '\n' then [first] else if further.isEmpty then [' '] else []) ++ further

/-! ### Plain scalars -/

def isFlowIndicator (c : Char) : Bool :=
  c = ',' || c = '[' || c = ']' || c = '\x7b' || c = '\x7d'

/-- The part of a plain scalar on one line up to the next gap or indicator. -/
def plainRun (flow : Bool) : Source → List Char × Source
  | [] => ([], [])
  | cell :: rest =>
    let c := cell.char
    let next := Source.front rest
    if isGap c || (c = ':' && (isGap next || (flow && isFlowIndicator next))) ||
        (flow && (c = '?' || isFlowIndicator c)) then ([], cell :: rest)
    else (c :: (plainRun flow rest).1, (plainRun flow rest).2)

/-- Breaks and spaces from the front: the breaks, whether a document marker ended them, and the
rest. -/
def plainBreaks : (fuel : Nat) → Source → List Char × Bool × Source
  | 0, s => ([], false, s)
  | fuel + 1, s =>
    if s.front = ' ' then plainBreaks fuel s.tail
    else
      match s.takeBreak? with
      | none => ([], false, s)
      | some (c, rest) =>
        if rest.startsWithAnyMarker then ([c], true, rest)
        else
          let (breaks, marker, rest) := plainBreaks fuel rest
          (c :: breaks, marker, rest)

structure PlainGap where
  /-- The folded gap, none if the scalar ends here. -/
  text : Option (List Char)
  /-- Whether the gap has a line break. -/
  breaks : Bool
  rest : Source

def plainGap (s : Source) : PlainGap :=
  let (spaces, rest) := s.span (· = ' ')
  match rest.takeBreak? with
  | none => ⟨if spaces.isEmpty then none else some spaces, false, rest⟩
  | some (first, rest) =>
    if rest.startsWithAnyMarker then ⟨none, true, rest⟩
    else
      let (further, marker, rest) := plainBreaks rest.length rest
      ⟨if marker then none else some (foldedBreak first further), true, rest⟩

/-- A plain scalar: its text, whether a line break follows it, and the rest. -/
def plainScalar : (fuel : Nat) → (flow : Bool) → (indent : Nat) → Source →
    List Char × Bool × Source
  | 0, _, _, s => ([], false, s)
  | fuel + 1, flow, indent, s =>
    let (run, rest) := plainRun flow s
    let gap := plainGap rest
    match gap.text with
    | none => (run, gap.breaks, gap.rest)
    | some between =>
      if gap.rest.front = '#' || (!flow && gap.rest.column < indent) ||
          (plainRun flow gap.rest).1.isEmpty then
        (run, gap.breaks, gap.rest)
      else
        let (more, breaks, rest) := plainScalar fuel flow indent gap.rest
        (run ++ between ++ more, breaks, rest)

/-! ### Quoted scalars -/

/-- The line breaks inside a quoted scalar and the rest; a document marker must not stand there. -/
def quotedBreaks : (fuel : Nat) → Source → Except Failure (List Char × Source)
  | 0, _ => .error .malformed
  | fuel + 1, s =>
    if s.startsWithAnyMarker then .error .malformed
    else
      let s := s.skip fun c => c = ' ' || c = '\t'
      match s.takeBreak? with
      | none => .ok ([], s)
      | some (c, rest) => (quotedBreaks fuel rest).map fun (breaks, rest) => (c :: breaks, rest)

/-- A gap inside a quoted scalar: blanks, or a folded line break. -/
def quotedGap (s : Source) : Except Failure (List Char × Source) :=
  let (blanks, rest) := s.span fun c => c = ' ' || c = '\t'
  if rest.front = endMark then .error .malformed
  else
    match rest.takeBreak? with
    | none => .ok (blanks, rest)
    | some (first, rest) =>
      (quotedBreaks rest.length rest).map fun (further, rest) => (foldedBreak first further, rest)

def unescaped? : Char → Option Char
  | '0' => some '\x00'
  | 'a' => some '\x07'
  | 'b' => some '\x08'
  | 't' | '\t' => some '\t'
  | 'n' => some '\n'
  | 'v' => some '\x0b'
  | 'f' => some '\x0c'
  | 'r' => some '\r'
  | 'e' => some '\x1b'
  | ' ' => some ' '
  | '"' => some '"'
  | '\\' => some '\\'
  | '/' => some '/'
  | 'N' => some '\x85'
  | '_' => some '\xa0'
  | 'L' => some '\u2028'
  | 'P' => some '\u2029'
  | _ => none

/-- The number of hexadecimal digits after a backslash and this character. -/
def escapeWidth? : Char → Option Nat
  | 'x' => some 2
  | 'u' => some 4
  | 'U' => some 8
  | _ => none

/-- The code point of a number. -/
def ofCode (code : Nat) : Except Failure CodePoint :=
  if 0x7FFFFFFF < code then .error (.brokenOff .characterTooLarge)
  else if 0x10FFFF < code then .error (.brokenOff .characterOutOfRange)
  else .ok (.ofNat code)

/-- The number that an escape writes, from the character after its backslash on, and the rest. -/
def escapedNumber? (s : Source) : Option (Nat × Source) := do
  let width ← escapeWidth? s.front
  let code ← Digits.hexNumber? ((s.tail.take width).map Cell.char)
  return (code, s.tail.drop width)

/-- What an escape stands for, from the character after its backslash on. -/
def quotedEscape (s : Source) : Except Failure (Text × Source) :=
  match unescaped? s.front, escapeWidth? s.front with
  | some c, _ => .ok ([.char c], s.tail)
  | none, some _ =>
    match escapedNumber? s with
    | none => .error .malformed
    | some (code, rest) => (ofCode code).map fun p => ([p], rest)
  | none, none =>
    match s.takeBreak? with
    | some (_, rest) =>
      (quotedBreaks rest.length rest).map fun (breaks, rest) => (.ofChars breaks, rest)
    | none => .error .malformed

/-- A quoted scalar after its opening quote, and the rest after its closing one. -/
def quotedScalar (double : Bool) : (fuel : Nat) → Source → Except Failure (Text × Source)
  | 0, _ => .error .malformed
  | fuel + 1, s =>
    let c := s.front
    let continued (part : Text × Source) : Except Failure (Text × Source) :=
      (quotedScalar double fuel part.2).map fun (more, rest) => (part.1 ++ more, rest)
    if isGap c then do
      let (gap, rest) ← quotedGap s
      continued (.ofChars gap, rest)
    else if double then
      if c = '"' then .ok ([], s.tail)
      else if c = '\\' then do continued (← quotedEscape s.tail)
      else continued ([.char c], s.tail)
    else if c = '\'' then
      if s.peek 1 = '\'' then continued ([.char '\''], s.tail.tail) else .ok ([], s.tail)
    else continued ([.char c], s.tail)

/-! ### Block scalars -/

/-- What becomes of the line breaks at the end of a block scalar. -/
inductive Chomping where
  | strip
  | clip
  | keep
  deriving DecidableEq

def chomping? : Char → Option Chomping
  | '+' => some .keep
  | '-' => some .strip
  | _ => none

def indentDigit? (c : Char) : Option Nat :=
  if '1' ≤ c ∧ c ≤ '9' then some (c.toNat - 48) else none

/-- The indicators of a block scalar in either order, and the rest. -/
def blockIndicators (s : Source) : Except Failure (Chomping × Option Nat × Source) :=
  let (chomping, digit, rest) : Chomping × Option Nat × Source :=
    match chomping? s.front with
    | some chomping =>
      match indentDigit? (s.peek 1) with
      | some d => (chomping, some d, s.tail.tail)
      | none => (chomping, none, s.tail)
    | none =>
      match indentDigit? s.front with
      | some d =>
        match chomping? (s.peek 1) with
        | some chomping => (chomping, some d, s.tail.tail)
        | none => (.clip, some d, s.tail)
      | none => (.clip, none, s)
  if rest.front = ' ' || isBreakOrEnd rest.front then .ok (chomping, digit, rest)
  else .error .malformed

def ignoredLine (s : Source) : Except Failure Source :=
  let s := s.skip (· = ' ')
  let s := if s.front = '#' then s.skip (!isBreakOrEnd ·) else s
  match s.takeBreak? with
  | some (_, rest) => .ok rest
  | none => if s.front = endMark then .ok s else .error .malformed

/-- The breaks before the first line of a block scalar, its indentation, and the rest. -/
def blockIndentation : (fuel : Nat) → Source → List Char × Nat × Source
  | 0, s => ([], 0, s)
  | fuel + 1, s =>
    if s.front = ' ' then
      let (breaks, widest, rest) := blockIndentation fuel s.tail
      (breaks, max (Source.column s.tail) widest, rest)
    else
      match s.takeBreak? with
      | some (c, rest) =>
        let (breaks, widest, rest) := blockIndentation fuel rest
        (c :: breaks, widest, rest)
      | none => ([], 0, s)

/-- Up to `indent` columns of spaces. -/
def skipIndent (indent : Nat) : Source → Source
  | [] => []
  | cell :: rest =>
    if cell.column < indent ∧ cell.char = ' ' then skipIndent indent rest else cell :: rest

/-- Empty lines of a block scalar: their breaks and the rest. -/
def blockBreaks (indent : Nat) : (fuel : Nat) → Source → List Char × Source
  | 0, s => ([], s)
  | fuel + 1, s =>
    let s := skipIndent indent s
    match s.takeBreak? with
    | some (c, rest) =>
      let (breaks, rest) := blockBreaks indent fuel rest
      (c :: breaks, rest)
    | none => ([], s)

/-- The lines of a block scalar after `breaks`, with the breaks at its end as its chomping has
them. -/
def blockLines (folded : Bool) (chomping : Chomping) (indent : Nat) :
    (fuel : Nat) → (breaks : List Char) → Source → List Char × Source
  | 0, _, s => ([], s)
  | fuel + 1, breaks, s =>
    let flush := !(s.front = ' ' || s.front = '\t')
    let (line, rest) := s.span (!isBreakOrEnd ·)
    let (lineBreak, rest) := match rest.takeBreak? with
      | some (c, rest) => ([c], rest)
      | none => ([], rest)
    let (further, rest) := blockBreaks indent rest.length rest
    if rest.column = indent ∧ rest.front ≠ endMark then
      let joint :=
        if folded && lineBreak = ['\n'] && flush && !(rest.front = ' ' || rest.front = '\t') then
          if further.isEmpty then [' '] else []
        else lineBreak
      let (more, rest) := blockLines folded chomping indent fuel further rest
      (breaks ++ line ++ joint ++ more, rest)
    else
      let tail := match chomping with
        | .strip => []
        | .clip => lineBreak
        | .keep => lineBreak ++ further
      (breaks ++ line ++ tail, rest)

/-- A block scalar after its indicator; `least` is the least indentation it may have. -/
def blockScalar (folded : Bool) (least : Nat) (s : Source) :
    Except Failure (List Char × Source) := do
  let (chomping, digit, rest) ← blockIndicators s
  let rest ← ignoredLine rest
  let (breaks, indent, rest) := match digit with
    | some d =>
      let indent := least + d - 1
      let (breaks, rest) := blockBreaks indent rest.length rest
      (breaks, indent, rest)
    | none =>
      let (breaks, widest, rest) := blockIndentation rest.length rest
      (breaks, max least widest, rest)
  if rest.column = indent ∧ rest.front ≠ endMark then
    return blockLines folded chomping indent rest.length breaks rest
  else
    return (if chomping = .keep then breaks else [], rest)

end PropValidators.Yaml
