import SyntaxForest.CommandLine.ParseTables
import SyntaxForest.CommandLine.Run
import SyntaxForest.Toml.Writer

/-! The command line.  What the arguments speak of is read into a store of files,
the run works on the store, and what it changed is written back.  Every name is
taken for a file of its own, and the user for one who may write everything: what
the system objects to is found out when it is written back. -/

namespace SyntaxForest.Main

/-- The usage of the command line. -/
def usage : String :=
  "Usage: astviz (-f FILE | -d DIR) [-o DIR] [--config FILE] [--format dot|json|png|svg]\n" ++
    "              [--dump] [--print-tree]\n"

/-- The text of a location. -/
def textOf (location : Location) : String :=
  "/" ++ "/".intercalate location

/-- The locations on the way of a path. -/
def onTheWay (start : Location) (path : Path) : List Location :=
  (path.pieces.filter Path.isStep).foldl
    (fun reached piece =>
      let place := reached.getLast?.getD []
      reached ++ [if piece = ".." then place.dropLast else place ++ [piece]])
    [if path.isAbsolute then [] else start]

/-- Reads what stands at a location, and down to a depth below it. -/
partial def load (depth : Option Nat) (store : FileStore) (location : Location) : IO FileStore := do
  let path := (← IO.currentDir) / textOf location
  try
    match (← path.symlinkMetadata).type with
    | .file => return store.addFile location (← IO.FS.readBinFile path)
    | .dir =>
      let mut store := store.set location (.directory true)
      if depth ≠ some 0 then
        for entry in ← path.readDir do
          store ← load (depth.map (· - 1)) store (location ++ [entry.fileName])
      return store
    | .symlink =>
      let target : Path := ⟨(← IO.FS.realPath path).toString⟩
      let places := onTheWay [] target
      let store ← places.dropLast.foldlM (load (some 0)) (store.set location (.link target))
      if target.text = textOf location then return store
      else load (depth.map (· - 1)) store (places.getLast?.getD [])
    | .other => return store
  catch _ => return store

/-- Reads what a path leads to, with everything on the way. -/
def loadPath (depth : Option Nat) (store : FileStore) (path : Path) : IO FileStore := do
  let places := onTheWay store.workingDirectory path
  let store ← places.dropLast.foldlM (load (some 0)) store
  load depth store (places.getLast?.getD [])

/-- Reads what the arguments speak of. -/
def loadAll (arguments : Arguments) : IO FileStore := do
  let current : Path := ⟨(← IO.currentDir).toString⟩
  let workingDirectory := (onTheWay [] current).getLast?.getD []
  let store ← loadPath (some 0) { workingDirectory, isPrivileged := true } current
  let beside := (arguments.file.map fun file => (Input.file file).outputDirectory).toList
  let store ← (beside ++ arguments.output.toList).foldlM (loadPath (some 1)) store
  let store ← (arguments.file.toList ++ [arguments.config]).foldlM (loadPath (some 0)) store
  arguments.directory.toList.foldlM (loadPath none) store

/-- Writes the files that changed. -/
def save (before after : FileStore) : IO Unit := do
  for (location, entry) in after.entries do
    if let .file id := entry then
      if before.get? location ≠ some entry || before.file id ≠ after.file id then
        IO.FS.writeBinFile (textOf location) (after.file id).content

/-- Runs with arguments. -/
def run (arguments : Arguments) : IO ExitStatus := do
  let before ← loadAll arguments
  let tools : Run.Tools := {
    parser := ParseTables.parser before
    program := .missing ImageProgram.standardName
    walker := Discovery.inStoreOrder
    format := Toml.countingFormat }
  let run := Run.ofArguments tools before arguments
  save before run.store
  IO.print (run.output.getD usage)
  IO.eprint run.errors
  return run.status

end SyntaxForest.Main

open SyntaxForest in
/-- Reads the arguments and runs. -/
def main (words : List String) : IO UInt32 := do
  match Arguments.ofWords words with
  | .ok arguments => return (← Main.run arguments).code.toUInt32
  | .error fault =>
    if fault.isRequest then IO.print Main.usage
    else IO.eprint ("error: " ++ fault.name ++ "\n\n" ++ Main.usage)
    return (Run.statusOfFault fault).code.toUInt32
