import SyntaxForest.CommandLine.Arguments
import SyntaxForest.CommandLine.ExitStatus
import SyntaxForest.Discovery

/-! Options of a run: arguments whose paths were found to be what they should. -/

namespace SyntaxForest

/-- The input that arguments ask for: a file or a directory, not both. -/
def Arguments.input (arguments : Arguments) : Except Failure Input :=
  let failure (message rule : String) : Failure :=
    ((Failure.invalidArgument message).during "options::input").noting ExitStatus.inputKey rule
  match arguments.file, arguments.directory with
  | some file, none => .ok (.file file)
  | none, some directory => .ok (.directory directory)
  | none, none => .error (failure "one of -f or -d is required" "missing")
  | some _, some _ => .error (failure "-f and -d cannot be used together" "conflicting")

/-- The extensions of sources. -/
def sourceExtensions : List String := ["java"]

/-- Whether an extension is one of a source. -/
def isSourceExtension (extension : String) : Bool :=
  sourceExtensions.any fun candidate => Path.sameIgnoringCase candidate extension

/-- What a run is asked to do. -/
structure Options where
  input : Input
  outputDirectory : Path
  config : Path
  format : OutputFormat
  dump : Bool
  printTree : Bool
deriving DecidableEq, Repr

namespace Options

def inputFailure (path : Path) (message : String) : Failure :=
  (Failure.invalidPath path.text message).during "options::validate_input"

def outputFailure (path : Path) (message : String) : Failure :=
  (Failure.invalidPath path.text message).during "options::validate_output"

/-- Whether a file that is given is called as a source is. -/
def isJavaFile (path : Path) : Bool :=
  match path.extension? with
  | some extension => Path.sameIgnoringCase extension "java"
  | none => false

/-- Checks that an input is there and of its kind. -/
def checkInput (store : FileStore) : Input → Except Failure Unit
  | .file path =>
    if !store.isFile path then .error (inputFailure path "not an existing regular file")
    else if !isJavaFile path then .error (inputFailure path "not a .java file")
    else .ok ()
  | .directory path =>
    if !store.isDirectory path then .error (inputFailure path "not an existing directory")
    else .ok ()

/-- Checks that artifacts can be put into a directory. -/
def checkOutput (store : FileStore) (path : Path) : Except Failure Unit :=
  match store.find path with
  | .error error =>
    .error ((outputFailure path "output directory does not exist").because error.asCause)
  | .ok (_, .directory isWritable) =>
    if isWritable then .ok () else .error (outputFailure path "output directory is not writable")
  | .ok _ => .error (outputFailure path "output path is not a directory")

/-- The options of arguments with their input. -/
def ofArguments (store : FileStore) (arguments : Arguments) (input : Input) :
    Except Failure Options := do
  checkInput store input
  let outputDirectory ← match arguments.output with
    | some directory => do
      checkOutput store directory
      pure directory
    | none => pure input.outputDirectory
  return {
    input
    outputDirectory
    config := arguments.config
    format := arguments.format
    dump := arguments.dump
    printTree := arguments.printTree }

end Options

end SyntaxForest
