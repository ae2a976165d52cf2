import PropValidators.File.Path
import PropValidators.Keyed
import PropValidators.Text.Quoted
import PropValidators.Text.Utf8
/-!
Trees of files and directories. What an operation finds or refuses depends on nothing but which
files and directories there are; there are no links.
-/
namespace PropValidators

/-- A place in a file system: the names to it from the root, the innermost first. -/
structure Location where
  names : List String
  deriving DecidableEq, Repr

namespace Location

def root : Location := ⟨[]⟩

def child (l : Location) (name : String) : Location := ⟨name :: l.names⟩

/-- The directory around a place; the root is in itself. -/
def up (l : Location) : Location := ⟨l.names.tail⟩

def path (l : Location) : Path := ⟨true, l.names.reverse⟩

end Location

inductive FileNode where
  | file (content : List UInt8)
  | directory
  deriving DecidableEq

/-- The nodes of a file system by their places, and the directory that paths are read from which are
not absolute. That one and those around it are always there. -/
structure FileTree where
  workingDirectory : Location
  nodes : List (Location × FileNode)

/-- Why an operation on a path is refused. -/
inductive FileProblem where
  | missing
  | alreadyThere
  | notDirectory
  | isDirectory
  /-- A character that no path can have. -/
  | nul
  deriving DecidableEq, Repr

structure FileError where
  problem : FileProblem
  path : Path
  deriving DecidableEq, Repr

/-- The number and the words of the system for a problem; none for a path that is not even given to
the system. -/
def FileProblem.report? : FileProblem → Option (Nat × String)
  | missing => some (2, "No such file or directory")
  | alreadyThere => some (17, "File exists")
  | notDirectory => some (20, "Not a directory")
  | isDirectory => some (21, "Is a directory")
  | nul => none

def FileError.message? (e : FileError) : Option String :=
  e.problem.report?.map fun (number, words) =>
    s!"[Errno {number}] {words}: " ++ Quoted.string e.path.text

namespace FileTree

def node? (t : FileTree) (l : Location) : Option FileNode :=
  if l.names.isSuffixOf t.workingDirectory.names then some .directory else t.nodes.lookup l

def put (t : FileTree) (l : Location) (n : FileNode) : FileTree :=
  { t with nodes := Keyed.put l n t.nodes }

/-- The place that a name leads to from a directory. -/
def step (t : FileTree) (l : Location) (name : String) : Except FileProblem Location :=
  match t.node? l with
  | none => .error .missing
  | some (.file _) => .error .notDirectory
  | some .directory => .ok (if name = ".." then l.up else l.child name)

/-- The place that a path starts from. -/
def start (t : FileTree) (p : Path) : Location := if p.absolute then .root else t.workingDirectory

/-- The place that a path leads to; nothing needs to be there. -/
def locate (t : FileTree) (p : Path) : Except FileProblem Location :=
  if p.hasNul then .error .nul else p.names.foldlM t.step (t.start p)

def find (t : FileTree) (p : Path) : Except FileProblem FileNode := do
  match t.node? (← t.locate p) with
  | some n => return n
  | none => throw .missing

def contains (t : FileTree) (p : Path) : Bool := (t.find p).toOption.isSome

def isDirectory (t : FileTree) (p : Path) : Bool := (t.find p).toOption = some .directory

def read (t : FileTree) (p : Path) : Except FileError (List UInt8) :=
  match t.find p with
  | .ok (.file content) => .ok content
  | .ok .directory => .error ⟨.isDirectory, p⟩
  | .error problem => .error ⟨problem, p⟩

/-- Makes a directory in one that is there. -/
def makeDirectory (t : FileTree) (p : Path) : Except FileProblem FileTree := do
  let l ← t.locate p
  match t.node? l with
  | some _ => throw .alreadyThere
  | none => return t.put l .directory

/-- Makes a directory in one that is there, unless it is a directory already. -/
def ensureDirectory (t : FileTree) (p : Path) : FileTree × Except FileError Unit :=
  match t.makeDirectory p with
  | .ok t => (t, .ok ())
  | .error problem =>
    if problem ≠ .missing ∧ t.isDirectory p then (t, .ok ()) else (t, .error ⟨problem, p⟩)

/-- Makes the directory of names, the last one first, with those around it that are missing. A
refusal may come after some have been made. -/
def ensureNames (t : FileTree) (absolute : Bool) :
    (names : List String) → FileTree × Except FileError Unit
  | [] => t.ensureDirectory ⟨absolute, []⟩
  | name :: names =>
    let p : Path := ⟨absolute, (name :: names).reverse⟩
    match t.makeDirectory p with
    | .error .missing =>
      match t.ensureNames absolute names with
      | (t, .ok ()) => t.ensureDirectory p
      | (t, .error e) => (t, .error e)
    | _ => t.ensureDirectory p

/-- Makes a directory with those around it that are missing. -/
def ensureDirectories (t : FileTree) (p : Path) : FileTree × Except FileError Unit :=
  t.ensureNames p.absolute p.names.reverse

/-- Puts a content in place of a file, or into a new one in a directory that is there. -/
def replace (t : FileTree) (p : Path) (content : List UInt8) : FileTree × Except FileError Unit :=
  match t.locate p with
  | .error problem => (t, .error ⟨problem, p⟩)
  | .ok l =>
    match t.node? l with
    | some .directory => (t, .error ⟨.isDirectory, p⟩)
    | _ => (t.put l (.file content), .ok ())

/-- Writes a file, with the directories around it that are missing. -/
def write (t : FileTree) (p : Path) (content : List UInt8) : FileTree × Except FileError Unit :=
  match t.ensureDirectories p.parent with
  | (t, .ok ()) => t.replace p content
  | (t, .error e) => (t, .error e)

/-- What keeps a file from being read as text. -/
inductive TextError where
  | refused (error : FileError)
  | notUtf8
  deriving DecidableEq, Repr

/-- The text of the file that a path leads to, its lines ended by line feeds. -/
def readText (t : FileTree) (p : Path) : Except TextError String :=
  match t.read p with
  | .error e => .error (.refused e)
  | .ok content =>
    match Utf8.decode? content with
    | some cs => .ok (String.ofList (Utf8.unifyLines cs))
    | none => .error .notUtf8

end FileTree

end PropValidators
