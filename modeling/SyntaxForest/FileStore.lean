import SyntaxForest.NameMap
import SyntaxForest.Path
import SyntaxForest.SystemError

/-! A store of files.  Every entry has a location, the names on the way to it from
the root; a path leads to a location from the working directory, and through
links.  A file may stand at several locations: each is a name of it, and what is
written under one name is read under all of them.  Files and directories tell
whether they may be read and written; directories may always be looked through. -/

namespace SyntaxForest

/-- The names on the way from the root to an entry. -/
abbrev Location := List String

/-- Contents of files are compared byte by byte. -/
instance (priority := high) FileStore.decidableEqContent : DecidableEq ByteArray :=
  ByteArray.instDecidableEq

/-- What stands at a location: a name of the file of a number, a directory, or a link
to the path that a text gives. -/
inductive FileStore.Entry where
  | file (id : Nat)
  | directory (isWritable : Bool)
  | link (target : Path)
deriving DecidableEq

/-- What may be done with a file. -/
structure FileStore.Access where
  isReadable : Bool := true
  isWritable : Bool := true
deriving DecidableEq, Repr

/-- What a file holds, and what may be done with it. -/
structure FileStore.File where
  content : ByteArray := .empty
  access : FileStore.Access := {}
deriving DecidableEq

/-- Files, directories and links by their locations, and the files themselves by
their numbers.  The root is always a directory.  New files may be used as `newAccess`
says.  A privileged user may read and write whatever files and directories say. -/
structure FileStore where
  entries : List (Location × FileStore.Entry) := []
  files : List (Nat × FileStore.File) := []
  workingDirectory : Location := []
  newAccess : FileStore.Access := {}
  isPrivileged : Bool := false
deriving DecidableEq

namespace FileStore

/-- What stands at a location. -/
def get? (store : FileStore) (location : Location) : Option Entry :=
  if location = [] then some (.directory true) else store.entries.lookup location

/-- The store with the entry of one location set. -/
def set (store : FileStore) (location : Location) (entry : Entry) : FileStore :=
  { store with entries := setEntry location entry store.entries }

/-- The file of a number.  One that was never written is empty. -/
def file (store : FileStore) (id : Nat) : File :=
  (store.files.lookup id).getD {}

/-- The store with the content of one file replaced. -/
def setContent (store : FileStore) (id : Nat) (content : ByteArray) : FileStore :=
  { store with files := setEntry id { store.file id with content } store.files }

/-- A number above those of all files that have a name. -/
def newNumber (store : FileStore) : Nat :=
  store.entries.foldr
    (fun entry bound =>
      match entry.2 with
      | .file id => max (id + 1) bound
      | _ => bound)
    0

/-- The store with a new file at a location. -/
def addFile (store : FileStore) (location : Location) (content : ByteArray) : FileStore :=
  { store with
    entries := setEntry location (.file store.newNumber) store.entries
    files := setEntry store.newNumber ⟨content, store.newAccess⟩ store.files }

/-- The store with a location and all above it made directories, where nothing
stands yet. -/
def withDirectory (store : FileStore) (location : Location) : FileStore :=
  (List.range (location.length + 1)).foldl
    (fun store depth =>
      let above := location.take depth
      if (store.get? above).isSome then store else store.set above (.directory true))
    store

/-- What a path is followed for: to look at what it leads to, or to put a file
there. -/
inductive Purpose where
  | look
  | create
deriving DecidableEq, Repr

/-- How many bytes a name may have. -/
def nameLimit : Nat := 255

/-- How many bytes a path may have. -/
def pathLimit : Nat := 4095

/-- Follows the pieces of a path from a directory.  All but the last have to lead
to directories; nothing needs to stand where the last leads.  A file is not
created under a name with a slash after it, and nothing has a name that is too
long. -/
def follow (store : FileStore) (purpose : Purpose)
    (onLink : Location → List String → Except SystemError Location) :
    Location → List String → Except SystemError Location
  | place, [] => .ok place
  | place, piece :: rest =>
    if !Path.isStep piece then follow store purpose onLink place rest
    else if piece = ".." then follow store purpose onLink place.dropLast rest
    else if purpose = .create && rest ≠ [] && rest.all (· = "") then .error .isADirectory
    else if nameLimit < piece.utf8ByteSize then .error .nameTooLong
    else
      let next := place ++ [piece]
      match store.get? next with
      | none => if rest = [] then .ok next else .error .noEntry
      | some (.file _) => if rest = [] then .ok next else .error .notADirectory
      | some (.directory _) => follow store purpose onLink next rest
      | some (.link target) =>
        onLink (if target.isAbsolute then [] else place) (target.pieces ++ rest)

/-- Follows pieces through at most `links` links. -/
def followLinks (store : FileStore) (purpose : Purpose) :
    Nat → Location → List String → Except SystemError Location
  | 0 => store.follow purpose fun _ _ => .error .tooManyLinks
  | links + 1 => store.follow purpose (store.followLinks purpose links)

/-- How many links are followed on the way of one path. -/
def linkLimit : Nat := 40

/-- The location that a path leads to, where nothing needs to stand. -/
def locate (store : FileStore) (purpose : Purpose) (path : Path) : Except SystemError Location :=
  if path.text.toList.contains '\x00' then .error .nulInPath
  else if path.text = "" then .error .noEntry
  else if pathLimit < path.text.utf8ByteSize then .error .nameTooLong
  else
    store.followLinks purpose linkLimit
      (if path.isAbsolute then [] else store.workingDirectory) path.pieces

/-- What stands where a path leads to. -/
def find (store : FileStore) (path : Path) : Except SystemError (Location × Entry) := do
  let location ← store.locate .look path
  match store.get? location with
  | some entry => .ok (location, entry)
  | none => .error .noEntry

/-- Whether a path leads to anything. -/
def contains (store : FileStore) (path : Path) : Bool :=
  match store.find path with
  | .ok _ => true
  | .error _ => false

/-- Whether a path leads to a file. -/
def isFile (store : FileStore) (path : Path) : Bool :=
  match store.find path with
  | .ok (_, .file _) => true
  | _ => false

/-- Whether a path leads to a directory. -/
def isDirectory (store : FileStore) (path : Path) : Bool :=
  match store.find path with
  | .ok (_, .directory _) => true
  | _ => false

/-- Whether a file may be read. -/
def mayRead (store : FileStore) (id : Nat) : Bool :=
  store.isPrivileged || (store.file id).access.isReadable

/-- Whether a file may be written. -/
def mayWrite (store : FileStore) (id : Nat) : Bool :=
  store.isPrivileged || (store.file id).access.isWritable

/-- Whether a new file may be put at a location, into the directory above it. -/
def mayAdd (store : FileStore) (location : Location) : Bool :=
  store.isPrivileged ||
    match store.get? location.dropLast with
    | some (.directory isWritable) => isWritable
    | _ => false

/-- Reads the file that a path leads to. -/
def read (store : FileStore) (path : Path) : Except SystemError ByteArray := do
  match ← store.find path with
  | (_, .file id) =>
    if store.mayRead id then .ok (store.file id).content else .error .permissionDenied
  | (_, .directory _) => .error .isADirectory
  | (_, .link _) => .error .tooManyLinks

/-- Writes the file that a path leads to, in place of what it holds.  The store
does not change when that fails. -/
def write (store : FileStore) (path : Path) (content : ByteArray) :
    Except SystemError FileStore := do
  let location ← store.locate .create path
  match store.get? location with
  | some (.file id) =>
    if store.mayWrite id then .ok (store.setContent id content) else .error .permissionDenied
  | some (.directory _) => .error .isADirectory
  | some (.link _) => .error .tooManyLinks
  | none =>
    if store.mayAdd location then .ok (store.addFile location content)
    else .error .permissionDenied

end FileStore

end SyntaxForest
