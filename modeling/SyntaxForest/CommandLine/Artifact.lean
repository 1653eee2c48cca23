import SyntaxForest.CommandLine.Options
import SyntaxForest.Forest.Build
import SyntaxForest.Forest.Text
import SyntaxForest.Java.MethodDump
import SyntaxForest.Java.Projection
import SyntaxForest.Outline

/-! The artifact of one source: its drawing in the format asked for, or a dump of
its first method. -/

namespace SyntaxForest

/-- A source file that was read. -/
structure SourceFile where
  path : Path
  content : ByteArray
deriving DecidableEq

/-- Reads a source file. -/
def SourceFile.read (store : FileStore) (path : Path) : Except Failure SourceFile :=
  match store.read path with
  | .ok content => .ok ⟨path, content⟩
  | .error error => .error ((error.failure.during "file::read").noting "path" path.text)

namespace Artifact

/-- Writes the text of an artifact. -/
def writeText (store : FileStore) (path : Path) (text : String) : Except Failure FileStore :=
  match store.write path text.toUTF8 with
  | .ok store => .ok store
  | .error error => .error ((error.failure.during "output::write").noting "path" path.text)

/-- What artifacts depend on beside the source. -/
structure Setting where
  options : Options
  sheet : StyleSheet
  parser : Java.Parser
  program : ImageProgram

/-- What became of one source: the files, what was printed on the way, and the path of
the artifact. -/
structure Outcome where
  store : FileStore
  printed : String
  result : Except Failure Path

/-- The outcome when a text is written to a path. -/
def written (store : FileStore) (printed : String) (path : Path) (text : String) : Outcome :=
  match writeText store path text with
  | .ok store => ⟨store, printed, .ok path⟩
  | .error failure => ⟨store, printed, .error failure⟩

/-- The outcome when nothing is written. -/
def failed (store : FileStore) (printed : String) (failure : Failure) : Outcome :=
  ⟨store, printed, .error failure⟩

/-- Writes a drawing in the format asked for. -/
def drawn (setting : Setting) (store : FileStore) (printed : String) (stem : String)
    (forest : Forest) : Outcome :=
  let options := setting.options
  let path := Path.artifact options.outputDirectory stem options.format.name
  let dot := forest.dot { size := setting.sheet.canvas }
  match options.format.image? with
  | some format =>
    let (store, result) := setting.program.render dot format path store
    ⟨store, printed, result.map fun _ => path⟩
  | none => written store printed path (if options.format = .json then forest.json.pretty else dot)

/-- What is printed of a tree.  No entry of this outline is deep enough to exceed
the limit of indentation. -/
def printedTree (setting : Setting) (tree : Tree) : String :=
  if setting.options.printTree then ({} : Outline).text tree ++ "\n" else ""

/-- Makes the artifact of a source that was read. -/
def ofFile (setting : Setting) (store : FileStore) (file : SourceFile) : Outcome :=
  let stem := file.path.artifactStem
  match Java.Source.ofBytes setting.parser file.content with
  | .error failure => failed store "" failure
  | .ok source =>
    let printed := printedTree setting source.project
    if setting.options.dump then
      match Java.MethodDump.ofSource source with
      | .error failure => failed store printed failure
      | .ok dump =>
        written store printed (Path.artifact setting.options.outputDirectory stem "json")
          dump.json.pretty
    else
      match Forest.build setting.sheet source.project with
      | .error fault => failed store printed (Failure.invariantViolation fault.message)
      | .ok forest => drawn setting store printed stem forest

/-- Makes the artifact of the source at a path. -/
def ofPath (setting : Setting) (store : FileStore) (path : Path) : Outcome :=
  match SourceFile.read store path with
  | .error failure => failed store "" failure
  | .ok file => ofFile setting store file

end Artifact

end SyntaxForest
