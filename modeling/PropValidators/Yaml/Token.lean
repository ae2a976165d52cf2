import PropValidators.Text.Basic
import PropValidators.Yaml.Source
/-!
The tokens of a YAML text, and why a text may fail to be read.
-/
namespace PropValidators.Yaml

/-- What breaks the reading of a text off: a scalar that has the form of a value of its type and is
none, or nesting beyond what a reader can follow. -/
inductive Breakdown where
  | characterOutOfRange
  | characterTooLarge
  | unreadableNumber
  | emptyNumber
  | unknownTruthValue
  | unreadableTimestamp
  | impossibleTimestamp
  | timestampOfMapping
  | nesting
  deriving DecidableEq, Repr

/-- Why a text is not read as a value. -/
inductive Failure where
  | malformed
  | brokenOff (cause : Breakdown)
  deriving DecidableEq, Repr

/-- A directive at the head of a document. -/
inductive Directive where
  | version (major minor : Nat)
  | tagHandle (handle replacement : String)
  | unknown

inductive Token where
  | directive (d : Directive)
  | documentStart
  | documentEnd
  | blockSequenceStart
  | blockMappingStart
  | blockEnd
  | flowSequenceStart
  | flowSequenceEnd
  | flowMappingStart
  | flowMappingEnd
  | blockEntry
  | flowEntry
  | key
  | value
  | reference (name : String)
  | anchor (name : String)
  /-- A tag: a suffix after a handle, or a whole tag. -/
  | tag (handle : Option String) (suffix : String)
  /-- A scalar and whether it is written without quotes and block indicators. -/
  | scalar (text : Text) (plain : Bool)
  | streamEnd
  /-- The place from which on a text has no tokens. -/
  | broken (failure : Failure)

end PropValidators.Yaml
