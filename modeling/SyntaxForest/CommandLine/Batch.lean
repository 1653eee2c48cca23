import SyntaxForest.CommandLine.Artifact

/-! Sources one after the other.  A source that fails is told about and does not
keep the others from being drawn. -/

namespace SyntaxForest

/-- How far a batch has come: the files, what was printed and what was complained
about, the artifacts that were made and the sources that failed, each in order. -/
structure Batch where
  store : FileStore
  output : String := ""
  errors : String := ""
  generated : List Path := []
  failed : List (Path × Failure) := []

namespace Batch

/-- How many sources were handled. -/
def total (batch : Batch) : Nat :=
  batch.generated.length + batch.failed.length

/-- The batch after one more source. -/
def step (setting : Artifact.Setting) (batch : Batch) (path : Path) : Batch :=
  let outcome := Artifact.ofPath setting batch.store path
  let output := batch.output ++ "Creating AST for " ++ path.title ++ "\n" ++ outcome.printed
  match outcome.result with
  | .ok artifact =>
    { batch with
      store := outcome.store
      output := output ++ "Generated AST for " ++ path.title ++ "\n"
      generated := batch.generated ++ [artifact] }
  | .error failure =>
    { batch with
      store := outcome.store
      output
      errors :=
        batch.errors ++ "Failed to generate AST for " ++ path.title ++ ": " ++
          failure.summary ++ "\n"
      failed := batch.failed ++ [(path, failure)] }

/-- Draws sources in order. -/
def ofPaths (setting : Artifact.Setting) (store : FileStore) (paths : List Path) : Batch :=
  paths.foldl (step setting) { store }

/-- What is said at the end when sources failed. -/
def closing (batch : Batch) : String :=
  if batch.failed = [] then ""
  else
    toString batch.failed.length ++ " of " ++ toString batch.total ++ " files failed\n"

end Batch

end SyntaxForest
