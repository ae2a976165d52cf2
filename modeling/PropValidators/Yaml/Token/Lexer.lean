import PropValidators.Text.Utf8
import PropValidators.Yaml.Token.Scalar
/-!
The tokens of a YAML text. Indentation opens and closes block collections. A mapping key without
an indicator is known as one only when its colon is met, so the places where one may have begun are
kept, and the tokens that a key asks for are put in there.
-/
namespace PropValidators.Yaml

/-- A place where a mapping key may have begun. -/
structure PossibleKey where
  /-- The number of tokens before it. -/
  position : Nat
  /-- Whether nothing but a key can stand there. -/
  required : Bool
  line : Nat
  column : Nat
  index : Nat

/-- Where the lexer stands between two tokens. -/
structure Lexer where
  tokens : Array Token
  /-- The columns of the block collections that are open, the innermost first. -/
  indents : List Nat
  /-- Whether a key without an indicator may begin. -/
  allowsKey : Bool
  /-- The possible key on this level of brackets. -/
  key : Option PossibleKey
  /-- The possible keys on the levels of brackets around it, the innermost first. -/
  outerKeys : List (Option PossibleKey)

namespace Lexer

def start : Lexer := ⟨#[], [], true, none, []⟩

def inFlow (s : Lexer) : Bool := !s.outerKeys.isEmpty

/-- The least column of what belongs to the innermost block collection. -/
def innerColumn (s : Lexer) : Nat := (s.indents.head?.map (· + 1)).getD 0

def emit (s : Lexer) (t : Token) : Lexer := { s with tokens := s.tokens.push t }

/-- Closes the block collections that are indented deeper than a column; none in brackets. -/
def closeBeyond (s : Lexer) (column : Nat) : Lexer :=
  if s.inFlow then s
  else
    let closed := s.indents.takeWhile (column < ·)
    { s with
      indents := s.indents.drop closed.length
      tokens := closed.foldl (fun ts _ => ts.push .blockEnd) s.tokens }

def closeAll (s : Lexer) : Lexer :=
  if s.inFlow then s
  else
    { s with
      indents := []
      tokens := s.indents.foldl (fun ts _ => ts.push .blockEnd) s.tokens }

/-- Opens a block collection at a column if it is indented deeper than the innermost one. -/
def opensAt (s : Lexer) (column : Nat) : Option Lexer :=
  if s.innerColumn ≤ column then some { s with indents := column :: s.indents } else none

def dropKey (s : Lexer) : Except Failure Lexer :=
  match s.key with
  | some key => if key.required then .error .malformed else .ok { s with key := none }
  | none => .ok s

/-- Whether a possible key is too far back for a colon at this place. -/
def isStale (src : Source) (key : PossibleKey) : Bool :=
  key.line ≠ src.line || 1024 < src.index - key.index

def dropStaleKeys (s : Lexer) (src : Source) : Except Failure Lexer :=
  let stale (key : Option PossibleKey) : Bool := key.any (isStale src)
  if (s.key :: s.outerKeys).any fun key => stale key && key.any (·.required) then
    .error .malformed
  else
    let kept (key : Option PossibleKey) : Option PossibleKey := if stale key then none else key
    .ok { s with key := kept s.key, outerKeys := s.outerKeys.map kept }

/-- Notes that a key may begin here, if one is allowed. -/
def noteKey (s : Lexer) (src : Source) : Except Failure Lexer :=
  if s.allowsKey then do
    let s ← s.dropKey
    let required := !s.inFlow && s.indents.head? = some src.column
    return { s with
      key := some ⟨s.tokens.size, required, src.line, src.column, src.index⟩ }
  else .ok s

/-- Skips blanks, comments and line breaks. Outside brackets a line break allows a key. -/
def skipToToken (flow : Bool) : (comment allowsKey : Bool) → Source → Bool × Source
  | _, allowsKey, [] => (allowsKey, [])
  | comment, allowsKey, cell :: rest =>
    if isBreak cell.char then skipToToken flow false (allowsKey || !flow) rest
    else if cell.char = endMark then (allowsKey, cell :: rest)
    else if comment then skipToToken flow true allowsKey rest
    else if cell.char = ' ' then skipToToken flow false allowsKey rest
    else if cell.char = '#' then skipToToken flow true allowsKey rest
    else (allowsKey, cell :: rest)

/-! ### Anchors, tags and directives -/

def word (s : Source) : Except Failure (String × Source) :=
  let (cs, rest) := s.span isWordChar
  if cs.isEmpty then .error .malformed else .ok (String.ofList cs, rest)

def anchorName (s : Source) : Except Failure (String × Source) := do
  let (name, rest) ← word s
  let c := rest.front
  if isGap c || "?:,]\x7d%@".contains c || c = '\x60' then return (name, rest)
  else .error .malformed

def isUriChar (c : Char) : Bool := c.isAlphanum || "-;/?:@&=+$,_.!~*'()[]".contains c

def uriOctets : (fuel : Nat) → Source → Except Failure (List UInt8 × Source)
  | 0, s => .ok ([], s)
  | fuel + 1, s =>
    if s.front = '%' then
      match Digits.hexNumber? [s.peek 1, s.peek 2] with
      | some n => (uriOctets fuel (s.drop 3)).map fun (octets, rest) => (.ofNat n :: octets, rest)
      | none => .error .malformed
    else .ok ([], s)

/-- A URI with its escapes resolved, and the rest. -/
def uriChars : (fuel : Nat) → Source → Except Failure (List Char × Source)
  | 0, s => .ok ([], s)
  | fuel + 1, s => do
    let (run, rest) := s.span isUriChar
    if rest.front = '%' then
      let (octets, rest) ← uriOctets rest.length rest
      match Utf8.decode? octets with
      | some cs =>
        let (more, rest) ← uriChars fuel rest
        return (run ++ cs ++ more, rest)
      | none => .error .malformed
    else return (run, rest)

def uri (s : Source) : Except Failure (String × Source) := do
  let (cs, rest) ← uriChars s.length s
  if rest.length = s.length then .error .malformed else return (String.ofList cs, rest)

/-- A tag handle: an exclamation mark, or a word between two. -/
def tagHandle (s : Source) : Except Failure (String × Source) :=
  if s.front ≠ '!' then .error .malformed
  else if s.peek 1 = ' ' then .ok ("!", s.tail)
  else
    let (cs, rest) := Source.span isWordChar s.tail
    if rest.front = '!' then .ok (String.ofList ('!' :: cs ++ ['!']), rest.tail)
    else .error .malformed

/-- Whether a space, a line break or the end stands at the front. -/
def atSeparator (s : Source) : Bool := s.front = ' ' || isBreakOrEnd s.front

def tag (s : Source) : Except Failure (Token × Source) := do
  let (found, rest) ←
    if s.peek 1 = '<' then do
      let (whole, rest) ← uri (s.drop 2)
      if rest.front = '>' then pure (Token.tag none whole, rest.tail) else .error .malformed
    else if isGap (s.peek 1) then pure (Token.tag none "!", s.tail)
    else do
      let ahead := (Source.span (fun c => !(c = ' ' || isBreakOrEnd c)) s.tail).1
      let (handle, rest) ← if ahead.contains '!' then tagHandle s else pure ("!", s.tail)
      let (suffix, rest) ← uri rest
      pure (Token.tag (some handle) suffix, rest)
  if atSeparator rest then return (found, rest) else .error .malformed

def versionNumber (s : Source) : Except Failure (Nat × Source) :=
  let (digits, rest) := s.span Char.isDigit
  if digits.isEmpty then .error .malformed else .ok (Digits.value digits, rest)

def directive (s : Source) : Except Failure (Directive × Source) := do
  let (name, rest) ← word s
  if !atSeparator rest then .error .malformed
  else
    let afterName := rest.skip (· = ' ')
    let (found, rest) ←
      if name = "YAML" then do
        let (major, rest) ← versionNumber afterName
        if rest.front ≠ '.' then .error .malformed
        else
          let (minor, rest) ← versionNumber rest.tail
          if atSeparator rest then pure (Directive.version major minor, rest)
          else .error .malformed
      else if name = "TAG" then do
        let (handle, rest) ← tagHandle afterName
        if rest.front ≠ ' ' then .error .malformed
        else
          let (replacement, rest) ← uri (rest.skip (· = ' '))
          if atSeparator rest then pure (Directive.tagHandle handle replacement, rest)
          else .error .malformed
      else pure (Directive.unknown, rest.skip (!isBreakOrEnd ·))
    return (found, ← ignoredLine rest)

/-! ### One token after another -/

/-- A token of the document's frame: all block collections are closed before it. -/
def frame (s : Lexer) (t : Token) : Except Failure Lexer := do
  let s ← s.closeAll.dropKey
  return { s with allowsKey := false }.emit t

def openBracket (s : Lexer) (src : Source) (t : Token) : Except Failure Lexer := do
  let s ← s.noteKey src
  return { s with allowsKey := true, key := none, outerKeys := s.key :: s.outerKeys }.emit t

def closeBracket (s : Lexer) (t : Token) : Except Failure Lexer := do
  let s ← s.dropKey
  match s.outerKeys with
  | key :: outerKeys => return { s with allowsKey := false, key, outerKeys }.emit t
  | [] => .error .malformed

/-- An indicator of a block entry, a key or a value without a possible key before it. Outside
brackets it may open a block collection, where a key may begin. -/
def blockIndicator (s : Lexer) (src : Source) (opening t : Token) (keyInFlow : Bool) :
    Except Failure Lexer := do
  if s.inFlow then
    let s ← s.dropKey
    return { s with allowsKey := keyInFlow }.emit t
  else if s.allowsKey then
    let s := match s.opensAt src.column with
      | some s => s.emit opening
      | none => s
    return (← s.dropKey).emit t
  else .error .malformed

def valueIndicator (s : Lexer) (src : Source) : Except Failure Lexer :=
  match s.key with
  | none => s.blockIndicator src .blockMappingStart .value false
  | some key =>
    let opened := if s.inFlow then none else s.opensAt key.column
    let put := match opened with
      | some _ => [Token.blockMappingStart, Token.key]
      | none => [Token.key]
    let before := s.tokens.toList.take key.position
    let after := s.tokens.toList.drop key.position
    .ok { opened.getD s with
      key := none
      allowsKey := false
      tokens := (before ++ put ++ after ++ [Token.value]).toArray }

/-- A token that may begin a key and does not allow another one right after it. -/
def simple (s : Lexer) (src : Source) (read : Except Failure (Token × Source)) :
    Except Failure (Lexer × Source) := do
  let s ← s.noteKey src
  let (t, rest) ← read
  return ({ s with allowsKey := false }.emit t, rest)

/-- Whether a plain scalar may begin at the front. -/
def startsPlain (flow : Bool) (src : Source) : Bool :=
  let c := src.front
  !(isGap c || isFlowIndicator c || "-?:#&*!|>'\"%@".contains c || c = '\x60') ||
    (!isGap (src.peek 1) && (c = '-' || (!flow && (c = '?' || c = ':'))))

/-- The token at the front of a source that is not at its end. -/
def next (s : Lexer) (src : Source) : Except Failure (Lexer × Source) := do
  let c := src.front
  let gapAfter := isGap (src.peek 1)
  if c = '%' ∧ src.column = 0 then
    let (d, rest) ← directive src.tail
    return (← s.frame (.directive d), rest)
  else if src.column = 0 ∧ src.startsWithMarker '-' then
    return (← s.frame .documentStart, src.drop 3)
  else if src.column = 0 ∧ src.startsWithMarker '.' then
    return (← s.frame .documentEnd, src.drop 3)
  else if c = '[' then return (← s.openBracket src .flowSequenceStart, src.tail)
  else if c = '\x7b' then return (← s.openBracket src .flowMappingStart, src.tail)
  else if c = ']' then return (← s.closeBracket .flowSequenceEnd, src.tail)
  else if c = '\x7d' then return (← s.closeBracket .flowMappingEnd, src.tail)
  else if c = ',' then
    let s ← s.dropKey
    return ({ s with allowsKey := true }.emit .flowEntry, src.tail)
  else if c = '-' ∧ gapAfter then
    let s ← s.blockIndicator src .blockSequenceStart .blockEntry true
    return ({ s with allowsKey := true }, src.tail)
  else if c = '?' ∧ (s.inFlow ∨ gapAfter) then
    return (← s.blockIndicator src .blockMappingStart .key false, src.tail)
  else if c = ':' ∧ (s.inFlow ∨ gapAfter) then return (← s.valueIndicator src, src.tail)
  else if c = '*' then
    s.simple src ((anchorName src.tail).map fun (name, rest) => (.reference name, rest))
  else if c = '&' then
    s.simple src ((anchorName src.tail).map fun (name, rest) => (.anchor name, rest))
  else if c = '!' then s.simple src (tag src)
  else if (c = '|' ∨ c = '>') ∧ ¬s.inFlow then
    let s ← s.dropKey
    let (text, rest) ← blockScalar (c = '>') (max 1 s.innerColumn) src.tail
    return ({ s with allowsKey := true }.emit (.scalar (.ofChars text) false), rest)
  else if c = '\'' ∨ c = '"' then
    s.simple src ((quotedScalar (c = '"') src.length src.tail).map fun (text, rest) =>
      (.scalar text false, rest))
  else if startsPlain s.inFlow src then
    let s ← s.noteKey src
    let (text, breaks, rest) := plainScalar src.length s.inFlow s.innerColumn src
    return ({ s with allowsKey := breaks }.emit (.scalar (.ofChars text) true), rest)
  else .error .malformed

/-- The tokens from a place on; where there are none, the failure is the last one. -/
def run : (fuel : Nat) → Lexer → Source → List Token
  | 0, s, _ => s.tokens.toList ++ [.broken .malformed]
  | fuel + 1, s, src =>
    let (allowsKey, src) := skipToToken s.inFlow false s.allowsKey src
    match dropStaleKeys { s with allowsKey } src with
    | .error failure => s.tokens.toList ++ [.broken failure]
    | .ok s =>
      let s := s.closeBeyond src.column
      if src.front = endMark then
        match s.frame .streamEnd with
        | .ok s => s.tokens.toList
        | .error failure => s.tokens.toList ++ [.broken failure]
      else
        match s.next src with
        | .ok (s, src) => run fuel s src
        | .error failure => s.tokens.toList ++ [.broken failure]

end Lexer

/-- The tokens of a text. A byte order mark at its start is skipped. -/
def Token.ofChars (cs : List Char) : List Token :=
  if cs.all isAllowed then
    let src := Source.ofChars cs
    let src := if src.front = '\ufeff' then src.tail else src
    Lexer.run (cs.length + 1) .start src
  else [.broken .malformed]

end PropValidators.Yaml
