import PropValidators.Command.Flag
import PropValidators.Text.Quoted
/-!
What is said about the use of the command line: the help, and what is wrong with arguments.
-/
namespace PropValidators.Command

/-- Lines, each of them ended. -/
def lines (ls : List String) : String := String.join (ls.map (· ++ "\n"))

namespace Topic

/-- The lines that show how a command is written. -/
def synopsis : Topic → List String
  | .program => [
    "usage: proptypegen [-h] [--verbose] COMMAND ..."]
  | .command .convert => [
    "usage: proptypegen convert [-h] [--alias ALIAS] [--type NAME]",
    "                           [--config CONFIG] [--output OUTPUT] [--strict]",
    "                           request"]
  | .command .check => [
    "usage: proptypegen check [-h] [--alias ALIAS] [--type NAME] [--config CONFIG]",
    "                         request"]

/-- The lines of help that follow how a command is written. -/
def explanation : Topic → List String
  | .program => [
    "",
    "PropTypeGen - compile TypeScript prop types into PropTypes validators",
    "",
    "positional arguments:",
    "  COMMAND",
    "    convert   Convert a request document into PropTypes validators",
    "    check     Report properties that would be dropped by conversion",
    "",
    "options:",
    "  -h, --help  show this help message and exit",
    "  --verbose   Log skipped types and properties"]
  | .command .convert => [
    "",
    "Convert the selected type groups of a JSON request document into PropTypes.",
    "",
    "positional arguments:",
    "  request               JSON request document describing the type groups",
    "",
    "options:",
    "  -h, --help            show this help message and exit",
    "  --alias ALIAS         Local name of the React import (default: React)",
    "  --type NAME           Type group to convert; may be repeated (default: all",
    "                        groups)",
    "  --config CONFIG       Configuration file (default: .proptypegen.yaml next to",
    "                        the request, if present)",
    "  --output OUTPUT, -o OUTPUT",
    "                        File to write the converted props to (default:",
    "                        standard output)",
    "  --strict              Fail when any selected property cannot be converted"]
  | .command .check => [
    "",
    "List selected type groups and properties for which no validator can be",
    "generated.",
    "",
    "positional arguments:",
    "  request          JSON request document describing the type groups",
    "",
    "options:",
    "  -h, --help       show this help message and exit",
    "  --alias ALIAS    Local name of the React import (default: React)",
    "  --type NAME      Type group to convert; may be repeated (default: all",
    "                   groups)",
    "  --config CONFIG  Configuration file (default: .proptypegen.yaml next to the",
    "                   request, if present)"]

def help (topic : Topic) : String := lines (topic.synopsis ++ topic.explanation)

end Topic

inductive UsageProblem where
  | ambiguous (argument : String) (candidates : List String)
  | superfluousValue (flag : Flag) (value : String)
  | missingValue (flag : Flag)
  | missingRequest
  | unknownCommand (name : String)
  | unrecognized (arguments : List String)
  deriving DecidableEq, Repr

def UsageProblem.message : UsageProblem → String
  | ambiguous argument candidates =>
    s!"ambiguous option: {argument} could match " ++ ", ".intercalate candidates
  | superfluousValue flag value =>
    s!"argument {flag.label}: ignored explicit argument " ++ Quoted.string value
  | missingValue flag => s!"argument {flag.label}: expected one argument"
  | missingRequest => "the following arguments are required: request"
  | unknownCommand name =>
    s!"argument COMMAND: invalid choice: {Quoted.string name} (choose from " ++
      ", ".intercalate (all.map fun c => Quoted.string c.name) ++ ")"
  | unrecognized arguments => "unrecognized arguments: " ++ " ".intercalate arguments

/-- A problem and the level of the command line that reports it. -/
structure UsageError where
  topic : Topic
  problem : UsageProblem
  deriving DecidableEq, Repr

def UsageError.text (e : UsageError) : String :=
  lines (e.topic.synopsis ++ [s!"{e.topic.title}: error: {e.problem.message}"])

end PropValidators.Command
