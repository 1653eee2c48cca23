import SyntaxForest.FileStore

/-! Finding the files to draw: a file that is given, or all files with an extension
below a directory, in the order of their paths.  Links below the directory are
not followed. -/

namespace SyntaxForest

/-- Where the sources come from. -/
inductive Input where
  | file (path : Path)
  | directory (path : Path)
deriving DecidableEq, Repr

namespace Input

def path : Input → Path
  | .file path => path
  | .directory path => path

/-- Where artifacts go when nothing is said: beside the file, or into the
directory. -/
def outputDirectory : Input → Path
  | .file path =>
    match path.parent? with
    | some above => if above.text = "" then ⟨"."⟩ else above
    | none => ⟨"."⟩
  | .directory path => path

end Input

namespace Discovery

/-- The path that names lead to from a directory. -/
def below (directory : Path) (names : List String) : Path :=
  names.foldl Path.join directory

/-- What is met on a walk: a path, and what stands there. -/
abbrev Encounter := Path × FileStore.Entry

/-- All that stands below a location, under the path that leads to the location. -/
def inside (store : FileStore) (directory : Path) (location : Location) : List Encounter :=
  store.entries.filterMap fun entry =>
    if location.isPrefixOf entry.1 && entry.1.length ≠ location.length then
      some (below directory (entry.1.drop location.length), entry.2)
    else none

/-- What a walk meets that starts at a location: what stands there, and all below. -/
def encounters (store : FileStore) (directory : Path) (location : Location) : List Encounter :=
  ((store.get? location).map (directory, ·)).toList ++ inside store directory location

/-- Whether a walk has to enter what it met, but cannot: a directory whose path is too
long. -/
def isBarred (encounter : Encounter) : Bool :=
  match encounter.2 with
  | .directory _ => FileStore.pathLimit < encounter.1.text.utf8ByteSize
  | _ => false

/-- Who walks directories: what is met there, in any order; otherwise the error, and the
path that it is about. -/
abbrev Walker := FileStore → Path → Except (Path × SystemError) (List Encounter)

/-- Walks through the store in its own order.  The path `-` stands for what is typed
in, where there are no files. -/
def inStoreOrder : Walker := fun store directory =>
  if directory.components = [.name "-"] then .ok []
  else
    match store.find directory with
    | .error error => .error (directory, error)
    | .ok (location, .directory _) =>
      match (encounters store directory location).find? isBarred with
      | some encounter => .error (encounter.1, .nameTooLong)
      | none => .ok (encounters store directory location)
    | .ok (_, entry) => .ok [(directory, entry)]

/-- A directory cannot be walked, for an error with something at or below it. -/
def failure (directory : Path) (place : Path) (error : SystemError) : Failure :=
  let reason := place.text ++ ": IO error for operation on " ++ place.text ++ ": " ++ error.message
  ((Failure.traversalFailed directory.text ("failed to walk directory: " ++ reason)).during
    "discovery::walk_dir").because ⟨reason, error.details⟩

/-- The files found so far, with one more if it has one of some extensions and was not
found before.  Paths are compared by their components. -/
def take (extensions : List String) (found : List Path) (encounter : Encounter) : List Path :=
  match encounter.2 with
  | .file _ =>
    if encounter.1.hasExtension extensions &&
        !found.any fun path => path.components = encounter.1.components then
      found ++ [encounter.1]
    else found
  | _ => found

/-- The files with one of some extensions among all that is met, in the order of their
paths. -/
def select (extensions : List String) (met : List Encounter) : List Path :=
  (met.foldl (take extensions) []).mergeSort Path.le

/-- The files below a directory that have one of some extensions. -/
def walk (walker : Walker) (store : FileStore) (directory : Path) (extensions : List String) :
    Except Failure (List Path) :=
  match walker store directory with
  | .error (place, error) => .error (failure directory place error)
  | .ok met => .ok (select extensions met)

/-- The files to draw. -/
def files (walker : Walker) (store : FileStore) (extensions : List String) :
    Input → Except Failure (List Path)
  | .file path => .ok [path]
  | .directory path => walk walker store path extensions

end Discovery

end SyntaxForest
