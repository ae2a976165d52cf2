import PropValidators.Json.Basic
/-!
Reading a JSON text. Besides standard JSON the words `NaN`, `Infinity` and `-Infinity` are
numbers. A text that is no document is refused with what is wrong and where.
-/
namespace PropValidators.Json

inductive Flaw where
  | byteOrderMark
  | expectedValue
  | expectedName
  | expectedColon
  | expectedComma
  | extraData
  | unterminatedString
  | controlCharacter
  | unknownEscape
  | badUnicodeEscape
  deriving DecidableEq, Repr

/-- A flaw with its place: how many characters stand before it, its line and its column. -/
structure SyntaxError where
  flaw : Flaw
  offset : Nat
  line : Nat
  column : Nat
  deriving DecidableEq, Repr

def Flaw.message : Flaw → String
  | byteOrderMark => "Unexpected UTF-8 BOM (decode using utf-8-sig)"
  | expectedValue => "Expecting value"
  | expectedName => "Expecting property name enclosed in double quotes"
  | expectedColon => "Expecting ':' delimiter"
  | expectedComma => "Expecting ',' delimiter"
  | extraData => "Extra data"
  | unterminatedString => "Unterminated string starting at"
  | controlCharacter => "Invalid control character at"
  | unknownEscape => "Invalid \\escape"
  | badUnicodeEscape => "Invalid \\uXXXX escape"

namespace SyntaxError

def message (e : SyntaxError) : String :=
  s!"{e.flaw.message}: line {e.line} column {e.column} (char {e.offset})"

/-- A flaw after the first `offset` characters of a text. -/
def located (text : List Char) (flaw : Flaw) (offset : Nat) : SyntaxError :=
  let before := text.take offset
  let lastLine := before.reverse.takeWhile (· ≠ '\n')
  ⟨flaw, offset, before.count '\n' + 1, lastLine.length + 1⟩

end SyntaxError

/-- Why reading is not carried to its end: a flaw with the text from its place on, or a limit. -/
inductive Refusal where
  | flaw (flaw : Flaw) (rest : List Char)
  | overrun (overrun : Overrun)

/-- Why a text is not read. -/
inductive ReadError where
  | malformed (error : SyntaxError)
  | overrun (overrun : Overrun)
  deriving DecidableEq, Repr

def isBlank (c : Char) : Bool := c = ' ' || c = '\t' || c = '\n' || c = '\r'

def skipBlanks (cs : List Char) : List Char := cs.dropWhile isBlank

/-- The character that a backslash and this character stand for. -/
def unescaped? : Char → Option Char
  | '"' => some '"'
  | '\\' => some '\\'
  | '/' => some '/'
  | 'b' => some '\x08'
  | 'f' => some '\x0c'
  | 'n' => some '\n'
  | 'r' => some '\r'
  | 't' => some '\t'
  | _ => none

/-- One part of a string literal: a character, or a UTF-16 code unit written by number. -/
inductive Piece where
  | char (c : Char)
  | unit (code : Nat)

/-- The pieces of a string literal up to its closing quote; `start` is the text from its opening
quote on. -/
def pieces (start : List Char) : List Char → Except Refusal (List Piece × List Char)
  | [] => .error (.flaw .unterminatedString start)
  | '"' :: rest => .ok ([], rest)
  | ['\\'] => .error (.flaw .unterminatedString start)
  | '\\' :: 'u' :: a :: b :: c :: d :: e :: rest =>
    match Digits.hexNumber? [a, b, c, d] with
    | some code => (pieces start (e :: rest)).map fun (ps, rest) => (.unit code :: ps, rest)
    | none => .error (.flaw .badUnicodeEscape ('u' :: a :: b :: c :: d :: e :: rest))
  | '\\' :: 'u' :: rest => .error (.flaw .badUnicodeEscape ('u' :: rest))
  | '\\' :: c :: rest =>
    match unescaped? c with
    | some c => (pieces start rest).map fun (ps, rest) => (.char c :: ps, rest)
    | none => .error (.flaw .unknownEscape ('\\' :: c :: rest))
  | c :: rest =>
    if c.toNat < 0x20 then .error (.flaw .controlCharacter (c :: rest))
    else (pieces start rest).map fun (ps, rest) => (.char c :: ps, rest)

def ofPair? (high low : Nat) : Option Char :=
  if 0xD800 ≤ high ∧ high < 0xDC00 ∧ 0xDC00 ≤ low ∧ low < 0xE000 then
    some (Char.ofNat (0x10000 + (high - 0xD800) * 0x400 + (low - 0xDC00)))
  else none

/-- The text of a string literal: a high and a low code unit in a row are one character. -/
def joined : List Piece → Text
  | [] => []
  | .char c :: rest => .char c :: joined rest
  | .unit high :: .unit low :: rest =>
    match ofPair? high low with
    | some c => .char c :: joined rest
    | none => .ofNat high :: joined (.unit low :: rest)
  | .unit code :: rest => .ofNat code :: joined rest

theorem ofPair?_ne_none {high low : Nat} (hhigh : (CodePoint.ofNat high).isHigh = true)
    (hlow : (CodePoint.ofNat low).isLow = true) : ofPair? high low ≠ none := by
  unfold CodePoint.ofNat at hhigh hlow
  split at hhigh
  · split at hlow
    · simp only [CodePoint.isHigh, CodePoint.isLow, decide_eq_true_eq, Fin.lt_def, Fin.le_def]
        at hhigh hlow
      have hr : 0xD800 ≤ high ∧ high < 0xDC00 ∧ 0xDC00 ≤ low ∧ low < 0xE000 := by
        omega
      simp [ofPair?, hr]
    · cases hlow
  · cases hhigh

/-- A text of pieces starts with a low surrogate only if the first piece is one. -/
theorem isLow_of_head?_joined {ps : List Piece} {p : CodePoint}
    (h : (joined ps).head? = some p) (hp : p.isLow = true) :
    ∃ code rest, ps = .unit code :: rest ∧ (CodePoint.ofNat code).isLow = true := by
  unfold joined at h
  split at h
  · cases h
  · cases h
    cases hp
  · next high low rest =>
    split at h
    · cases h
      cases hp
    · cases h
      exact ⟨high, _, rfl, hp⟩
  · next code rest _ =>
    cases h
    exact ⟨code, rest, rfl, hp⟩

theorem isJoined_joined (ps : List Piece) : (joined ps).isJoined = true := by
  fun_induction joined ps with
  | case1 => rfl
  | case2 c rest ih => exact Text.isJoined_cons ih fun _ _ h => by cases h.1
  | case3 high low rest c _ ih => exact Text.isJoined_cons ih fun _ _ h => by cases h.1
  | case4 high low rest hnone ih =>
    refine Text.isJoined_cons ih fun q hq h => ?_
    obtain ⟨code, _, heq, hlow⟩ := isLow_of_head?_joined hq h.2
    cases heq
    exact ofPair?_ne_none h.1 hlow hnone
  | case5 code rest hne ih =>
    refine Text.isJoined_cons ih fun q hq h => ?_
    obtain ⟨low, others, heq, _⟩ := isLow_of_head?_joined hq h.2
    exact hne low others heq

/-- A string literal after its opening quote. -/
def readText (start : List Char) (cs : List Char) : Except Refusal (JoinedText × List Char) :=
  (pieces start cs).map fun (ps, rest) => (⟨joined ps, isJoined_joined ps⟩, rest)

/-- The digits of the whole part of a number: a zero, or any that start with another digit. -/
def wholeDigits? : List Char → Option (List Char × List Char)
  | '0' :: rest => some (['0'], rest)
  | c :: rest => if c.isDigit then some ((c :: rest).span Char.isDigit) else none
  | [] => none

/-- The digits of a fraction, none if there is no point with a digit after it. -/
def fractionDigits : List Char → List Char × List Char
  | '.' :: c :: rest => if c.isDigit then (c :: rest).span Char.isDigit else ([], '.' :: c :: rest)
  | cs => ([], cs)

/-- The digits of an exponent after its letter and sign. -/
def signedDigits? (negative : Bool) (cs : List Char) : Option (Int × List Char) :=
  match cs.span Char.isDigit with
  | ([], _) => none
  | (digits, rest) =>
    let n : Int := Digits.value digits
    some (if negative then -n else n, rest)

/-- An exponent, if a letter for it is followed by digits. -/
def exponent? : List Char → Option (Int × List Char)
  | c :: rest =>
    if c = 'e' ∨ c = 'E' then
      match rest with
      | '-' :: rest => signedDigits? true rest
      | '+' :: rest => signedDigits? false rest
      | rest => signedDigits? false rest
    else none
  | [] => none

/-- A number after its sign: an integer unless it has a fraction or an exponent. -/
def unsigned? (negative : Bool) (cs : List Char) : Option (Json × List Char) :=
  match wholeDigits? cs with
  | none => none
  | some (whole, rest) =>
    let (fraction, rest) := fractionDigits rest
    let mantissa := Digits.value (whole ++ fraction)
    match exponent? rest with
    | some (e, rest) => some (.float (.ofDecimal negative mantissa (e - fraction.length)), rest)
    | none =>
      if fraction.isEmpty then some (.int (if negative then -(mantissa : Int) else mantissa), rest)
      else some (.float (.ofDecimal negative mantissa (-fraction.length)), rest)

/-- What has been read, if all limits are kept. -/
def admitted {α : Type} (overrun : Option Overrun) (found : α) : Except Refusal α :=
  match overrun with
  | none => .ok found
  | some o => .error (.overrun o)

/-- A value that is neither a string nor an array nor an object. -/
def readPlain (limits : Limits) (level : Nat) (cs : List Char) :
    Except Refusal (Json × List Char) :=
  match cs with
  | 'n' :: 'u' :: 'l' :: 'l' :: rest => .ok (.null, rest)
  | 't' :: 'r' :: 'u' :: 'e' :: rest => .ok (.bool true, rest)
  | 'f' :: 'a' :: 'l' :: 's' :: 'e' :: rest => .ok (.bool false, rest)
  | 'N' :: 'a' :: 'N' :: rest => .ok (.float .nan, rest)
  | 'I' :: 'n' :: 'f' :: 'i' :: 'n' :: 'i' :: 't' :: 'y' :: rest =>
    .ok (.float (.infinite false), rest)
  | '-' :: 'I' :: 'n' :: 'f' :: 'i' :: 'n' :: 'i' :: 't' :: 'y' :: rest =>
    .ok (.float (.infinite true), rest)
  | '-' :: rest =>
    match unsigned? true rest with
    | some found => admitted (found.1.overrun? limits level) found
    | none => .error (.flaw .expectedValue cs)
  | _ =>
    match unsigned? false cs with
    | some found => admitted (found.1.overrun? limits level) found
    | none => .error (.flaw .expectedValue cs)

mutual

/-- A value at the front of a text, inside `level` arrays and objects; `fuel` bounds the characters
read. -/
def readValue (limits : Limits) (level : Nat) :
    (fuel : Nat) → List Char → Except Refusal (Json × List Char)
  | 0, cs => .error (.flaw .expectedValue cs)
  | fuel + 1, cs =>
    match cs with
    | '"' :: rest => do
      let (text, rest) ← readText cs rest
      return (.string text, rest)
    | '[' :: rest =>
      if limits.allowNesting (level + 1) then
        match skipBlanks rest with
        | ']' :: rest => .ok (.array [], rest)
        | rest => do
          let (items, rest) ← readItems limits (level + 1) fuel rest
          return (.array items, rest)
      else .error (.overrun .nesting)
    | '{' :: rest =>
      if limits.allowNesting (level + 1) then
        match skipBlanks rest with
        | '}' :: rest => .ok (.object [], rest)
        | rest => do
          let (members, rest) ← readMembers limits (level + 1) fuel rest
          return (.object members, rest)
      else .error (.overrun .nesting)
    | cs => readPlain limits level cs

/-- The items of an array up to its end, at least one. -/
def readItems (limits : Limits) (level : Nat) :
    (fuel : Nat) → List Char → Except Refusal (List Json × List Char)
  | 0, cs => .error (.flaw .expectedValue cs)
  | fuel + 1, cs => do
    let (item, rest) ← readValue limits level fuel cs
    match skipBlanks rest with
    | ']' :: rest => return ([item], rest)
    | ',' :: rest => do
      let (items, rest) ← readItems limits level fuel (skipBlanks rest)
      return (item :: items, rest)
    | rest => .error (.flaw .expectedComma rest)

/-- The members of an object up to its end, at least one. -/
def readMembers (limits : Limits) (level : Nat) :
    (fuel : Nat) → List Char → Except Refusal (List (JoinedText × Json) × List Char)
  | 0, cs => .error (.flaw .expectedName cs)
  | fuel + 1, cs =>
    match cs with
    | '"' :: rest => do
      let (name, rest) ← readText cs rest
      match skipBlanks rest with
      | ':' :: rest => do
        let (value, rest) ← readValue limits level fuel (skipBlanks rest)
        match skipBlanks rest with
        | '}' :: rest => return ([(name, value)], rest)
        | ',' :: rest => do
          let (members, rest) ← readMembers limits level fuel (skipBlanks rest)
          return ((name, value) :: members, rest)
        | rest => .error (.flaw .expectedComma rest)
      | rest => .error (.flaw .expectedColon rest)
    | cs => .error (.flaw .expectedName cs)

end

/-- The document that a text holds with nothing but blanks around it. -/
def readDocument (limits : Limits) (cs : List Char) : Except Refusal Json :=
  match cs with
  | '\ufeff' :: _ => .error (.flaw .byteOrderMark cs)
  | _ => do
    let (value, rest) ← readValue limits 0 (cs.length + 1) (skipBlanks cs)
    match skipBlanks rest with
    | [] => return value
    | rest => .error (.flaw .extraData rest)

/-- A refusal with the place of a flaw in the whole text. -/
def Refusal.inText (cs : List Char) : Refusal → ReadError
  | .flaw f rest => .malformed (.located cs f (cs.length - rest.length))
  | .overrun o => .overrun o

/-- The document that a text holds, read within limits. -/
def read (limits : Limits) (text : String) : Except ReadError Json :=
  let cs := text.toList
  (readDocument limits cs).mapError (Refusal.inText cs)

/-- The deepest nesting of arrays and objects in a document that stands for a value, empty ones at
the bottom apart. -/
def maxDepth : Nat := 200

/-- The most characters of an integer in a document that stands for a value. -/
def maxIntegerLength : Nat := 4300

/-- Whether all strings of a document are Unicode text, and its nesting and its integers are within
the limits of documents that stand for values. -/
def isAdmitted (j : Json) : Bool :=
  j.isScalarText && j.filledDepth ≤ maxDepth && j.integerLength ≤ maxIntegerLength

/-- Reads a text as a document that stands for a value. -/
def readAdmitted? (text : String) : Option Json :=
  match read .unlimited text with
  | .ok j => if j.isAdmitted then some j else none
  | .error _ => none

end PropValidators.Json
