/-! Failures of an operation.  A failure has a kind, which decides how far it
reaches; the operation that met it, with the operations called before in its
context; further context; and at most one cause. -/

namespace SyntaxForest

/-- What went wrong.  Settings are invalid when they are there and cannot be read, and
unwritable when they are missing and cannot be created; a path is invalid when it is
no usable file or directory. -/
inductive Failure.Kind where
  | unexpected
  | configInvalid
  | configUnwritable
  | invalidArgument
  | invalidPath
  | parseFailed
  | grammarError
  | encodingError
  | fileNotFound
  | permissionDenied
  | ioFailed
  | traversalFailed
  | renderFailed
  | serializationFailed
  | deserializationFailed
  | invariantViolation
deriving DecidableEq, Repr

namespace Failure.Kind

/-- Every kind, in order of declaration. -/
def all : List Kind :=
  [.unexpected, .configInvalid, .configUnwritable, .invalidArgument, .invalidPath, .parseFailed,
   .grammarError, .encodingError, .fileNotFound, .permissionDenied, .ioFailed, .traversalFailed,
   .renderFailed, .serializationFailed, .deserializationFailed, .invariantViolation]

/-- The name of a kind. -/
def name : Kind → String
  | .unexpected => "Unexpected"
  | .configInvalid => "ConfigInvalid"
  | .configUnwritable => "ConfigUnwritable"
  | .invalidArgument => "InvalidArgument"
  | .invalidPath => "InvalidPath"
  | .parseFailed => "ParseFailed"
  | .grammarError => "GrammarError"
  | .encodingError => "EncodingError"
  | .fileNotFound => "FileNotFound"
  | .permissionDenied => "PermissionDenied"
  | .ioFailed => "IoFailed"
  | .traversalFailed => "TraversalFailed"
  | .renderFailed => "RenderFailed"
  | .serializationFailed => "SerializationFailed"
  | .deserializationFailed => "DeserializationFailed"
  | .invariantViolation => "InvariantViolation"

/-- The kind of a name. -/
def ofName? (name : String) : Option Kind :=
  all.find? fun kind => kind.name == name

/-- Whether a failure of this kind ends the whole run. -/
def isFatal : Kind → Bool
  | .configInvalid | .configUnwritable | .invalidArgument | .invalidPath | .traversalFailed
  | .invariantViolation => true
  | _ => false

end Failure.Kind

/-- How far a failure reaches: the whole run ends, or only the file at hand is given
up. -/
inductive Failure.Scope where
  | process
  | file
deriving DecidableEq, Repr

/-- The name of a scope. -/
def Failure.Scope.name : Failure.Scope → String
  | .process => "process"
  | .file => "file"

/-- The scope of a failure that nothing is known about. -/
def Failure.Scope.initial : Failure.Scope := .file

/-- What brought a failure about, told on one line and at length. -/
structure Failure.Cause where
  summary : String
  details : String
deriving DecidableEq, Repr

/-- A failure of an operation.  The operation is empty while none is named, and the
context keeps the order in which it was noted. -/
structure Failure where
  kind : Failure.Kind
  message : String
  scope : Failure.Scope
  operation : String := ""
  context : List (String × String) := []
  cause : Option Failure.Cause := none
deriving DecidableEq, Repr

namespace Failure

/-- A fresh failure; its kind decides how far it reaches. -/
def of (kind : Kind) (message : String) : Failure where
  kind
  message
  scope := if kind.isFatal then .process else .file

/-- Whether the failure ends the whole run. -/
def isFatal (failure : Failure) : Bool :=
  failure.scope = .process

/-- The first value noted under a key. -/
def contextValue? (failure : Failure) (key : String) : Option String :=
  failure.context.lookup key

/-- Makes the failure end the whole run. -/
def fatal (failure : Failure) : Failure :=
  { failure with scope := .process }

/-- Notes a fact. -/
def noting (failure : Failure) (key value : String) : Failure :=
  { failure with context := failure.context ++ [(key, value)] }

/-- Names the operation that met the failure.  An operation named before is kept
in the context. -/
def during (failure : Failure) (operation : String) : Failure :=
  let called :=
    if failure.operation = "" then failure else failure.noting "called" failure.operation
  { called with operation }

/-- Gives a failure its cause. -/
def because (failure : Failure) (cause : Cause) : Failure :=
  { failure with cause := some cause }

/-- Why a failure is not given a cause. -/
inductive Fault where
  | causeKnown
deriving DecidableEq, Repr

/-- The text of a refusal. -/
def Fault.message : Fault → String
  | .causeKnown => "source error already set"

/-- Gives a cause to a failure that has none yet. -/
def setCause (failure : Failure) (cause : Cause) : Except Fault Failure :=
  if failure.cause.isSome then .error .causeKnown else .ok (failure.because cause)

/-- Kind, scope and operation. -/
def heading (failure : Failure) : String :=
  failure.kind.name ++ " (" ++ failure.scope.name ++ ") at " ++ failure.operation

/-- The failure on one line. -/
def summary (failure : Failure) : String :=
  let context :=
    if failure.context = [] then ""
    else
      ", context \x7b " ++
        ", ".intercalate (failure.context.map fun note => note.1 ++ ": " ++ note.2) ++ " \x7d"
  let message := if failure.message = "" then "" else " => " ++ failure.message
  failure.heading ++ context ++ message

/-- The failure at length. -/
def details (failure : Failure) : String :=
  let message :=
    if failure.message = "" then "" else "\n    Message: " ++ failure.message ++ "\n"
  let context :=
    if failure.context = [] then ""
    else
      "\n    Context:\n" ++
        String.join (failure.context.map fun note => "        " ++ note.1 ++ ": " ++ note.2 ++ "\n")
  let cause :=
    match failure.cause with
    | some cause => "\n    Source: " ++ cause.details ++ "\n"
    | none => ""
  failure.heading ++ "\n" ++ message ++ context ++ cause

/-- The failure as the cause of another. -/
def asCause (failure : Failure) : Cause :=
  ⟨failure.summary, failure.details⟩

/-! The usual failures of each kind. -/

def unexpected (message : String) : Failure :=
  of .unexpected message

def parseFailed (message : String) : Failure :=
  of .parseFailed message

def grammarError (message : String) : Failure :=
  of .grammarError message

/-- The settings at `path` cannot be used. -/
def configInvalid (path message : String) : Failure :=
  (of .configInvalid message).noting "path" path

/-- The settings at `path` cannot be created. -/
def configUnwritable (path : String) : Failure :=
  (of .configUnwritable ("config store '" ++ path ++ "' cannot be created")).noting "path" path

def fileNotFound (path : String) : Failure :=
  (of .fileNotFound ("file '" ++ path ++ "' not found")).noting "path" path

def invalidArgument (message : String) : Failure :=
  of .invalidArgument message

def invalidPath (path message : String) : Failure :=
  (of .invalidPath message).noting "path" path

def traversalFailed (dir message : String) : Failure :=
  (of .traversalFailed message).noting "dir" dir

def renderFailed (message : String) : Failure :=
  of .renderFailed message

def serializationFailed (message : String) : Failure :=
  of .serializationFailed message

def invariantViolation (message : String) : Failure :=
  of .invariantViolation message

end Failure

end SyntaxForest
