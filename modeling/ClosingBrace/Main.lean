import ClosingBrace.Command.Run

/-!
# The program

The program takes a picture of what its arguments name, lets the run decide on it, and prints what
the run leaves behind. It does not search for files itself and has no words of its own for a text
that is not JSON; both come from its host.
-/

namespace ClosingBrace.Program

/-- What the program leaves to others. -/
structure Host where
  search : Scan.Query → IO (Except String (List String))
  complaint : String → String

/-- What is seen at a path. -/
structure Sight where
  has : Bool
  isDirectory : Bool
  content : Except ReadError (List UInt8)

def readErrorOf (path : String) : IO.Error → ReadError
  | .noFileOrDirectory .. => .opening .noEntry path
  | .inappropriateType .. => .opening .notDirectory path
  | .permissionDenied .. => .opening .accessDenied path
  | e => .other (toString e)

def contentOf (item : IO.FS.DirEntry) : IO (Except ReadError (List UInt8)) := do
  try
    if ← item.path.isDir then return .error (.reading .isDirectory)
    return .ok (← IO.FS.readBinFile item.path).toList
  catch e =>
    return .error (readErrorOf item.fileName e)

def look (item : IO.FS.DirEntry) : IO (String × Sight) := do
  return (item.fileName, ⟨← item.path.pathExists, ← item.path.isDir, ← contentOf item⟩)

def pathsOf (arguments : List String) (directory : String) : List String :=
  match Command.read arguments with
  | .ok a => Path.resolve directory Config.fileName :: a.config.toList ++ a.targets
  | .error _ => []

/-- The searches in those targets that are directories. -/
def queriesOf (arguments : List String) (directory : String) (isDirectory : String → Bool) :
    List Scan.Query :=
  match Command.read arguments with
  | .ok a => (a.targets.filter isDirectory).map fun target =>
      a.filter.query (Path.resolve directory target)
  | .error _ => []

/-- The surroundings of a run with the given arguments. -/
def surroundings (host : Host) (arguments : List String) : IO Surroundings := do
  let directory ← IO.currentDir
  let paths := pathsOf arguments directory.toString
  let named ← paths.mapM fun path => look ⟨directory, path⟩
  let queries := queriesOf arguments directory.toString fun path =>
    (named.lookup path).any (·.isDirectory)
  let found ← queries.mapM fun query => return (query, ← host.search query)
  let listed ← (found.flatMap fun (_, names) => names.toOption.getD []).mapM fun path =>
    look ⟨directory, path⟩
  let known := named ++ listed
  let input ←
    if paths.contains Command.Input.dash then (← IO.getStdin).readBinToEnd else pure .empty
  return {
    workingDirectory := directory.toString
    has := fun path => (known.lookup path).any (·.has)
    isDirectory := fun path => (known.lookup path).any (·.isDirectory)
    read := fun path =>
      match known.lookup path with
      | some sight => sight.content
      | none => .error (.opening .noEntry path)
    search := fun query => (found.lookup query).getD (.ok [])
    input := .ofPipe input.toList
    complaint := host.complaint }

def print (line : Command.Line) : IO Unit :=
  match line.stream with
  | .out => IO.println line.text
  | .err => IO.eprintln line.text

/-- Runs the program and gives its exit code. -/
def run (host : Host) (arguments : List String) : IO UInt32 := do
  match Command.run (← surroundings host arguments) arguments with
  | .ok outcome =>
    outcome.printed.forM print
    return outcome.code.toUInt32
  | .error e =>
    IO.eprintln e.message
    return 1

end ClosingBrace.Program
