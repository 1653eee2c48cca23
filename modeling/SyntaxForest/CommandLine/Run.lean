import SyntaxForest.CommandLine.Batch
import SyntaxForest.Settings.Store

/-! A whole run: the input is checked, the settings are loaded, the sources are
found, and then drawn.  Everything before the drawing ends the run when it
fails. -/

namespace SyntaxForest

/-- What a run left behind.  There is no output when the usage is to be shown in its
place. -/
structure Run where
  status : ExitStatus
  output : Option String
  errors : String
  store : FileStore

namespace Run

/-- What a run leaves to others: to parse sources, to draw images, to walk directories,
and to read and write the texts of settings. -/
structure Tools where
  parser : Java.Parser
  program : ImageProgram
  walker : Discovery.Walker
  format : Toml.Format

/-- What artifacts depend on in a run with options and settings. -/
def Tools.setting (tools : Tools) (options : Options) (settings : Settings) : Artifact.Setting where
  options
  sheet := .ofSettings settings
  parser := tools.parser
  program := tools.program

/-- Loads the settings, finds the sources and draws them. -/
def batch (tools : Tools) (store : FileStore) (options : Options) :
    FileStore × Except Failure Batch :=
  match Settings.loadOrCreate tools.format store options.config with
  | .error failure => (store, .error failure)
  | .ok (store, settings) =>
    match Discovery.files tools.walker store sourceExtensions options.input with
    | .error failure => (store, .error failure)
    | .ok paths =>
      let batch := Batch.ofPaths (tools.setting options settings) store paths
      (batch.store, .ok batch)

/-- The run that ends with a failure. -/
def ended (store : FileStore) (failure : Failure) : Run where
  status := .ofFailure failure
  output := some ""
  errors := "Error: " ++ failure.summary ++ "\n"
  store

/-- Runs with arguments. -/
def ofArguments (tools : Tools) (store : FileStore) (arguments : Arguments) : Run :=
  match arguments.input with
  | .error failure =>
    { status := .ofFailure failure
      output := none
      errors := "error: " ++ failure.message ++ "\n\n"
      store }
  | .ok input =>
    match Options.ofArguments store arguments input with
    | .error failure => ended store failure
    | .ok options =>
      match batch tools store options with
      | (store, .error failure) => ended store failure
      | (store, .ok batch) =>
        { status := .success
          output := some batch.output
          errors := batch.errors ++ batch.closing
          store }

/-- The status of a run whose arguments are not taken. -/
def statusOfFault (fault : Arguments.Fault) : ExitStatus :=
  if fault.isRequest then .success else .argumentParse

end Run

end SyntaxForest
