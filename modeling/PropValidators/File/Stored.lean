import PropValidators.Artifact
import PropValidators.Config
import PropValidators.File.Tree
import PropValidators.Request
/-!
Requests, configurations and converted props in files.
-/
namespace PropValidators

/-- Why a file does not give what is read from it: it has no text, or its text does not hold it. -/
inductive LoadError (ε : Type) where
  | unread (reason : FileTree.TextError)
  | invalid (error : ε)

namespace FileTree

variable {ε α : Type}

/-- What the text of a file holds. -/
def load (t : FileTree) (p : Path) (parse : String → Except ε α) : Except (LoadError ε) α :=
  match t.readText p with
  | .error reason => .error (.unread reason)
  | .ok text => (parse text).mapError .invalid

end FileTree

namespace Request

def load (t : FileTree) (p : Path) : Except (LoadError (List Fault)) Request :=
  t.load p fun text => (parse text).toExcept

/-- Why no request is loaded, in words; none for a file that is not UTF-8 and for a path that no
file can have, which break the loading off. -/
def loadMessage? (p : Path) : LoadError (List Fault) → Option String
  | .unread (.refused error) =>
    if error.problem = .missing then some s!"Request file not found: {p.text}"
    else error.message?.map (s!"Cannot read request file: " ++ ·)
  | .unread .notUtf8 => none
  | .invalid faults => some (invalidMessage p.text faults)

end Request

namespace Config

def load [Platform] (t : FileTree) (p : Path) : Except (LoadError ParseError) Config :=
  t.load p parse

/-- Why no configuration is loaded, in words; none for a file that is not UTF-8, for a path that no
file can have, and for an error of parsing without words, which break the loading off. -/
def loadMessage? (p : Path) : LoadError ParseError → Option String
  | .unread (.refused error) =>
    if error.problem = .missing then some s!"Config file not found: {p.text}"
    else error.message?.map (s!"Cannot read config file: " ++ ·)
  | .unread .notUtf8 => none
  | .invalid error => error.message? p.text

end Config

namespace Artifact

/-- Why converted props are not saved. -/
inductive SaveError where
  | refused (error : FileError)
  /-- A limit of the printer, which breaks the saving off. -/
  | overrun (overrun : Overrun)

/-- Converted props put into a file, with the directories around it that are missing. Those are made
before the text is. -/
def save [Platform] (t : FileTree) (p : Path) (props : List Assignment) :
    FileTree × Except SaveError Unit :=
  match serializeWithin Platform.limits props with
  | .ok text => (t.write p (Utf8.encode text.toList)).map id (·.mapError .refused)
  | .error overrun =>
    match t.ensureDirectories p.parent with
    | (t, .ok ()) => (t, .error (.overrun overrun))
    | (t, .error e) => (t, .error (.refused e))

def load [Platform] (t : FileTree) (p : Path) : Except (LoadError Error) (List Assignment) :=
  t.load p (deserialize Platform.limits)

end Artifact

end PropValidators
