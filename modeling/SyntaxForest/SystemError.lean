import SyntaxForest.Failure
import SyntaxForest.Text.Quoted

/-! Errors that the system reports about files, and the failures they become. -/

namespace SyntaxForest

/-- What the system objects to. -/
inductive SystemError.Kind where
  | notFound
  | permissionDenied
  | invalidData
  | alreadyExists
  | unexpectedEof
  | notADirectory
  | isADirectory
  | filesystemLoop
  | invalidFilename
  | invalidInput
  | other
deriving DecidableEq, Repr

namespace SystemError.Kind

/-- Every kind, in order of declaration. -/
def all : List Kind :=
  [.notFound, .permissionDenied, .invalidData, .alreadyExists, .unexpectedEof, .notADirectory,
   .isADirectory, .filesystemLoop, .invalidFilename, .invalidInput, .other]

/-- The name of a kind. -/
def name : Kind → String
  | .notFound => "NotFound"
  | .permissionDenied => "PermissionDenied"
  | .invalidData => "InvalidData"
  | .alreadyExists => "AlreadyExists"
  | .unexpectedEof => "UnexpectedEof"
  | .notADirectory => "NotADirectory"
  | .isADirectory => "IsADirectory"
  | .filesystemLoop => "FilesystemLoop"
  | .invalidFilename => "InvalidFilename"
  | .invalidInput => "InvalidInput"
  | .other => "Other"

/-- The kind of a name. -/
def ofName? (name : String) : Option Kind :=
  all.find? fun kind => kind.name == name

/-- The kind of failure that an error becomes. -/
def failureKind : Kind → Failure.Kind
  | .notFound => .fileNotFound
  | .permissionDenied => .permissionDenied
  | .invalidData => .encodingError
  | _ => .ioFailed

end SystemError.Kind

/-- An error reported by the system, with a message and told at length. -/
structure SystemError where
  kind : SystemError.Kind
  message : String
  details : String
deriving DecidableEq, Repr

namespace SystemError

/-- An error with a message of its own. -/
def custom (kind : Kind) (message : String) : SystemError where
  kind
  message
  details := "Custom \x7b kind: " ++ kind.name ++ ", error: " ++ Text.quoted message ++ " \x7d"

/-- An error that is told before the system is asked. -/
def early (kind : Kind) (message : String) : SystemError where
  kind
  message
  details :=
    "Error \x7b kind: " ++ kind.name ++ ", message: " ++ Text.quoted message ++ " \x7d"

/-- An error with a number. -/
def numbered (code : Nat) (kind : Kind) (message : String) : SystemError where
  kind
  message := message ++ " (os error " ++ toString code ++ ")"
  details :=
    "Os \x7b code: " ++ toString code ++ ", kind: " ++ kind.name ++ ", message: " ++
      Text.quoted message ++ " \x7d"

def noEntry : SystemError :=
  numbered 2 .notFound "No such file or directory"

def permissionDenied : SystemError :=
  numbered 13 .permissionDenied "Permission denied"

def notADirectory : SystemError :=
  numbered 20 .notADirectory "Not a directory"

def isADirectory : SystemError :=
  numbered 21 .isADirectory "Is a directory"

def tooManyLinks : SystemError :=
  numbered 40 .filesystemLoop "Too many levels of symbolic links"

def nameTooLong : SystemError :=
  numbered 36 .invalidFilename "File name too long"

/-- A path has a NUL character. -/
def nulInPath : SystemError :=
  early .invalidInput "file name contained an unexpected NUL byte"

/-- An argument of a program has a NUL character. -/
def nulInArgument : SystemError :=
  early .invalidInput "nul byte found in provided data"

/-- The error as the cause of a failure. -/
def asCause (error : SystemError) : Failure.Cause :=
  ⟨error.message, error.details⟩

/-- The failure that the error becomes. -/
def failure (error : SystemError) : Failure :=
  ((Failure.of error.kind.failureKind error.message).during "io").because error.asCause

end SystemError

end SyntaxForest
