import PropValidators.Command.Usage
import PropValidators.Text.DecimalDigit
import PropValidators.Text.Split
/-!
The words of a command line: which of them are options, which are not, and where options end. An
option may be shortened as long as no other option starts the same way.
-/
namespace PropValidators.Command

/-- Text that is written in one word with an option, after an equals sign or right after it. -/
structure Attachment where
  afterSign : Bool
  text : List Char
  deriving DecidableEq, Repr

/-- A word by itself. -/
inductive Word where
  | plain (text : String)
  | flag (flag : Flag) (name : String) (attached : Option Attachment)
  /-- A word in the form of an option that is none. -/
  | unknown (text : String)
  /-- Two dashes, after which all words are plain. -/
  | separator
  deriving DecidableEq, Repr

namespace Word

/-- Whether a word is an option or in the form of one. -/
def isOption : Word → Bool
  | flag .. | unknown _ => true
  | plain _ | separator => false

def partition (cs : List Char) : List Char × Option Attachment :=
  match cs.span (· ≠ '=') with
  | (name, _ :: text) => (name, some ⟨true, text⟩)
  | (name, []) => (name, none)

/-- The option that a word is exactly, or is exactly up to an equals sign. -/
def whole? (topic : Topic) (cs : List Char) : Option Word :=
  match topic.flag? (String.ofList cs) with
  | some f => some (.flag f (String.ofList cs) none)
  | none =>
    match partition cs with
    | (name, some attached) =>
      (topic.flag? (String.ofList name)).map fun f => .flag f (String.ofList name) attached
    | (_, none) => none

/-- The options that a word may be short for, with the spellings they have in full. A word with one
dash may also be an option of one letter with its value. -/
def candidates (topic : Topic) (cs : List Char) : List (String × Word) :=
  if ['-', '-'].isPrefixOf cs then
    let (short, attached) := partition cs
    (topic.spellings.filter fun (name, _) => short.isPrefixOf name.toList).map fun (name, f) =>
      (name, .flag f name attached)
  else
    topic.spellings.filterMap fun (name, f) =>
      if name.toList = cs.take 2 then some (name, .flag f name (some ⟨false, cs.drop 2⟩))
      else if cs.isPrefixOf name.toList then some (name, .flag f name none)
      else none

/-- Whether a word is a negative number: digits after the dash, or a point and digits after any. A
line feed at the end does not count. -/
def isNegativeNumber : List Char → Bool
  | '-' :: cs =>
    let body := if cs.getLast? = some '\n' then cs.dropLast else cs
    match Split.parts '.' body with
    | [digits] => !digits.isEmpty && digits.all DecimalDigit.isDigit
    | [whole, digits] =>
      whole.all DecimalDigit.isDigit && !digits.isEmpty && digits.all DecimalDigit.isDigit
    | _ => false
  | _ => false

/-- What a word that is not two dashes is at a level. -/
def ofString (topic : Topic) (s : String) : Except UsageProblem Word :=
  match s.toList with
  | '-' :: c :: cs =>
    match whole? topic ('-' :: c :: cs) with
    | some word => .ok word
    | none =>
      match candidates topic ('-' :: c :: cs) with
      | [(_, word)] => .ok word
      | [] =>
        if isNegativeNumber ('-' :: c :: cs) || cs.contains ' ' || c = ' ' then .ok (.plain s)
        else .ok (.unknown s)
      | several => .error (.ambiguous s (several.map (·.1)))
  | _ => .ok (.plain s)

def ofStrings (topic : Topic) : List String → Except UsageProblem (List Word)
  | [] => .ok []
  | s :: ss =>
    if s = "--" then .ok (.separator :: ss.map .plain)
    else do
      let word ← ofString topic s
      return word :: (← ofStrings topic ss)

end Word

/-- What one word gives: options with their values, which are empty for those that take none; then
an option whose value is the next word, or something that is no option. -/
structure Cluster where
  given : List (Flag × String) := []
  awaiting : Option Flag := none
  unknown : Option String := none

/-- The cluster with an option without a value in front. -/
def Cluster.cons (f : Flag) (c : Cluster) : Cluster := { c with given := (f, "") :: c.given }

namespace Attachment

/-- What is attached to an option of one letter in the middle of a word. -/
def ofRest? : List Char → Option Attachment
  | [] => none
  | '=' :: text => some ⟨true, text⟩
  | c :: text => some ⟨false, c :: text⟩

/-- The options that an option and its attachment give. Behind one of a single letter that takes no
value, each letter is another one. -/
def cluster (topic : Topic) (f : Flag) (oneLetter : Bool) :
    (attached : Option Attachment) → Except UsageProblem Cluster
  | none => .ok (if f.takesValue then { awaiting := some f } else { given := [(f, "")] })
  | some ⟨afterSign, text⟩ =>
    if f.takesValue then .ok { given := [(f, String.ofList text)] }
    else
      match text with
      | [] => .error (.superfluousValue f "")
      | c :: rest =>
        if !oneLetter || afterSign || c = '-' then
          .error (.superfluousValue f (String.ofList (c :: rest)))
        else
          match topic.flag? (String.ofList ['-', c]) with
          | some g => (Cluster.cons f) <$> cluster topic g true (ofRest? rest)
          | none => .ok { given := [(f, "")], unknown := some (String.ofList ('-' :: c :: rest)) }
termination_by attached => (attached.map fun a => a.text.length + 1).getD 0
decreasing_by
  rcases rest with _ | ⟨d, rest⟩
  · simp [ofRest?]
  · by_cases h : d = '=' <;> simp [ofRest?, h]

end Attachment

end PropValidators.Command
