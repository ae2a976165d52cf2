/-!
The options of the command line and where each of them is known.
-/
namespace PropValidators

/-- What the program can be asked to do with a request. -/
inductive Command where
  | convert
  | check
  deriving DecidableEq, Repr

namespace Command

def all : List Command := [convert, check]

def name : Command → String
  | convert => "convert"
  | check => "check"

def ofName? (s : String) : Option Command := all.find? fun c => c.name = s

/-- A level of the command line, with options and help of its own. -/
inductive Topic where
  | program
  | command (command : Command)
  deriving DecidableEq, Repr

inductive Flag where
  | help
  | verbose
  | importName
  | type
  | config
  | output
  | strict
  deriving DecidableEq, Repr

namespace Flag

/-- The spellings of an option, in order. -/
def names : Flag → List String
  | help => ["-h", "--help"]
  | verbose => ["--verbose"]
  | importName => ["--alias"]
  | type => ["--type"]
  | config => ["--config"]
  | output => ["--output", "-o"]
  | strict => ["--strict"]

def takesValue : Flag → Bool
  | help | verbose | strict => false
  | importName | type | config | output => true

def label (f : Flag) : String := "/".intercalate f.names

end Flag

namespace Topic

/-- The options that are known at a level, in order. -/
def flags : Topic → List Flag
  | program => [.help, .verbose]
  | command .convert => [.help, .importName, .type, .config, .output, .strict]
  | command .check => [.help, .importName, .type, .config]

/-- The spellings that are known at a level, each with its option. -/
def spellings (topic : Topic) : List (String × Flag) :=
  topic.flags.flatMap fun f => f.names.map fun name => (name, f)

def flag? (topic : Topic) (name : String) : Option Flag := topic.spellings.lookup name

/-- The words that a command line starts with at a level. -/
def title : Topic → String
  | program => "proptypegen"
  | command c => "proptypegen " ++ c.name

end Topic

end Command

end PropValidators
