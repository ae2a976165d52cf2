import PropValidators.Command.Outcome
/-!
The command line. What a command may look at is read before it runs; what it has changed is written
after that.
-/
namespace PropValidators.Main

open Command

/-- The paths that a command reads from. -/
def sources (request : Path) (options : Options) : List Path :=
  [request, request.parent.child Config.fileName] ++
    (nonempty? options.config).toList.map Path.ofString

/-- The paths that a command looks at. -/
def paths : Invocation → List Path
  | .help _ => []
  | .convert _ request options output _ =>
    sources (Path.ofString request) options ++ (nonempty? output).toList.map Path.ofString
  | .check _ request options => sources (Path.ofString request) options

def look (p : Path) : IO (Option FileNode) := do
  try
    let content ← IO.FS.readBinFile p.text
    return some (.file content.toList)
  catch
    | .inappropriateType _ code _ => return if code = 21 then some .directory else none
    | .noFileOrDirectory .. => return none
    | error => throw error

/-- The tree with what is found at a path and at the directories on the way to it. -/
def observe (t : FileTree) (p : Path) : IO FileTree :=
  (List.range (p.names.length + 1)).foldlM (fun t count => do
    let front := { p with names := p.names.take count }
    match t.locate front, ← look front with
    | .ok l, some n => return t.put l n
    | _, _ => return t) t

/-- Writes what one tree has beyond another. -/
def store (before after : FileTree) : IO Unit :=
  after.nodes.forM fun (l, n) => do
    if before.node? l ≠ some n then
      match n with
      | .directory => IO.FS.createDir l.path.text
      | .file content => IO.FS.writeBinFile l.path.text ⟨content.toArray⟩

/-- Prints how a command ends, and gives its exit code. -/
def report (outcome : Outcome) : IO UInt32 := do
  IO.print outcome.outputText
  IO.eprint outcome.messageText
  match outcome.code? with
  | some code => return .ofNat code
  | none =>
    IO.eprintln "The command was broken off."
    return 1

/-- Runs the command that arguments ask for. -/
def run (arguments : List String) : IO UInt32 := do
  match Invocation.ofArguments arguments with
  | .error error => report (.finished 2 [] [.usage error])
  | .ok invocation =>
    let workingDirectory := Path.ofString (← IO.currentDir).toString
    let before ← (paths invocation).foldlM observe ⟨⟨workingDirectory.names.reverse⟩, []⟩
    let (after, outcome) := @Invocation.run .standard before invocation
    store before after
    report outcome

end PropValidators.Main

def main (arguments : List String) : IO UInt32 := PropValidators.Main.run arguments
