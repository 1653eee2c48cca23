import SyntaxForest.FileStore
import SyntaxForest.Settings.Document

/-! The settings of a run are kept in a file, which is created with the initial
settings when it is missing. -/

namespace SyntaxForest.Settings

/-- The text of a new settings file that holds a document. -/
def newText (document : String) : String :=
  "# Default config store created by astviz\n" ++ document

/-- The error of reading a text from bytes that are none. -/
def notText : SystemError :=
  .custom .invalidData "stream did not contain valid UTF-8"

/-- Reads the text of a file. -/
def readText (store : FileStore) (path : Path) : Except SystemError String := do
  match String.fromUTF8? (← store.read path) with
  | some text => .ok text
  | none => .error notText

/-- The settings cannot be used. -/
def unusable (path : Path) (message : String) : Failure :=
  (Failure.configInvalid path.text message).during "config::load"

/-- Reads the settings from a file. -/
def load (format : Toml.Format) (store : FileStore) (path : Path) : Except Failure Settings :=
  match readText store path with
  | .error error => .error ((unusable path "config store cannot be read").because error.asCause)
  | .ok document =>
    match ofToml format document with
    | .ok settings => .ok settings
    | .error cause => .error ((unusable path "config store is not valid TOML").because cause)

/-- The settings cannot be created. -/
def uncreated (path : Path) (cause : Failure.Cause) : Failure :=
  ((Failure.configUnwritable path.text).during "config::write").because cause

/-- Creates a file with the initial settings. -/
def create (format : Toml.Format) (store : FileStore) (path : Path) : Except Failure FileStore :=
  match initial.toToml format with
  | .error cause => .error (uncreated path cause)
  | .ok document =>
    match store.write path (newText document).toUTF8 with
    | .ok store => .ok store
    | .error error => .error (uncreated path error.asCause)

/-- Reads the settings from a file, which is created when it is missing. -/
def loadOrCreate (format : Toml.Format) (store : FileStore) (path : Path) :
    Except Failure (FileStore × Settings) :=
  if store.contains path then (load format store path).map (store, ·)
  else (create format store path).map (·, initial)

end SyntaxForest.Settings
