import SyntaxForest.Failure

/-! How a run ends. -/

namespace SyntaxForest

/-- The status that a run ends with. -/
inductive ExitStatus where
  | success
  | missingInput
  | conflictingInput
  | invalidPath
  | argumentParse
  | invariant
  | walkFailed
  | configFailed
deriving DecidableEq, Repr

namespace ExitStatus

/-- The name of a status. -/
def name : ExitStatus → String
  | .success => "Success"
  | .missingInput => "MissingInput"
  | .conflictingInput => "ConflictingInput"
  | .invalidPath => "InvalidPath"
  | .argumentParse => "ArgumentParse"
  | .invariant => "Invariant"
  | .walkFailed => "WalkFailed"
  | .configFailed => "ConfigFailed"

/-- The number of a status. -/
def code : ExitStatus → UInt8
  | .success => 0
  | .missingInput => 1
  | .conflictingInput => 2
  | .invalidPath => 3
  | .argumentParse => 4
  | .invariant => 5
  | .walkFailed => 6
  | .configFailed => 7

/-- The key under which a failure notes the rule about inputs that was broken. -/
def inputKey : String := "input"

/-- The status of a run that a failure ended. -/
def ofFailure (failure : Failure) : ExitStatus :=
  match failure.kind with
  | .invalidPath | .fileNotFound => .invalidPath
  | .invalidArgument =>
    match failure.contextValue? inputKey with
    | some "missing" => .missingInput
    | some "conflicting" => .conflictingInput
    | _ => .argumentParse
  | .traversalFailed => .walkFailed
  | .configInvalid | .configUnwritable => .configFailed
  | _ => .invariant

end ExitStatus

end SyntaxForest
