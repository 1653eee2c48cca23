import SyntaxForest.FileStore
import SyntaxForest.Text.Blank

/-! Images are drawn by a program outside, which reads a graph from its standard
input and writes an image to a path. -/

namespace SyntaxForest

/-- Formats of images. -/
inductive ImageFormat where
  | png
  | svg
deriving DecidableEq, Repr

namespace ImageFormat

/-- Every format, in order of declaration. -/
def all : List ImageFormat := [.png, .svg]

/-- The name of a format, which is also the extension of its files. -/
def name : ImageFormat → String
  | .png => "png"
  | .svg => "svg"

/-- The format of a name. -/
def ofName? (name : String) : Option ImageFormat :=
  all.find? fun format => format.name == name

end ImageFormat

/-- What a program left behind: the files, its exit code, and what it wrote to its
standard error. -/
structure ImageProgram.Result where
  store : FileStore
  exitCode : Nat
  complaint : String

/-- A program that draws images.  It is run with arguments and an input, and gives
nothing when it cannot be started. -/
structure ImageProgram where
  name : Path
  run? : List String → String → FileStore → Option ImageProgram.Result

namespace ImageProgram

/-- A program that is not there. -/
def missing (name : Path) : ImageProgram :=
  ⟨name, fun _ _ _ => none⟩

/-- The program that is used when none is named. -/
def standardName : Path := ⟨"dot"⟩

def failure (path : Path) (message : String) : Failure :=
  ((Failure.renderFailed message).during "graphviz::render").noting "path" path.text

/-- The arguments of a run. -/
def arguments (format : ImageFormat) (path : Path) : List String :=
  ["-T" ++ format.name, "-o", path.text]

/-- The program cannot be started. -/
def notStarted (program : ImageProgram) (path : Path) (error : SystemError) : Failure :=
  (failure path ("cannot start '" ++ program.name.text ++ "'")).because error.asCause

/-- Draws a graph.  The files may have changed even when that fails. -/
def render (program : ImageProgram) (graph : String) (format : ImageFormat) (path : Path)
    (store : FileStore) : FileStore × Except Failure Unit :=
  if path.text.toList.contains '\x00' then (store, .error (program.notStarted path .nulInArgument))
  else match program.run? (arguments format path) graph store with
  | none => (store, .error (program.notStarted path .noEntry))
  | some result =>
    if result.exitCode = 0 then (result.store, .ok ())
    else
      let complaint := Text.trim result.complaint
      let message :=
        "graphviz exited with exit status: " ++ toString result.exitCode ++ ": " ++ complaint
      (result.store, .error ((failure path message).noting "stderr" complaint))

end ImageProgram

end SyntaxForest
