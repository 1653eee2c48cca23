/-! Paths of files.  A path is a text whose names are divided by slashes; its
components leave out what does not matter for where it leads: repeated slashes, a
slash at the end, and `.` except at the start.  Names are texts: one whose bytes are
no UTF-8 has no path here. -/

namespace SyntaxForest

/-- A path, as it is written. -/
structure Path where
  text : String
deriving DecidableEq, Repr

instance : Inhabited Path := ⟨⟨""⟩⟩

namespace Path

/-- A step of a path: the root that an absolute path starts from, a `.` at the start,
a `..`, or a name. -/
inductive Component where
  | root
  | here
  | up
  | name (text : String)
deriving DecidableEq, Repr

/-- Where components stand when paths are sorted: names last, in the order of
their code points. -/
def Component.key : Component → Nat × String
  | .root => (0, "")
  | .here => (1, "")
  | .up => (2, "")
  | .name text => (3, text)

/-- Whether one component does not come after another. -/
def Component.le (a b : Component) : Bool :=
  a.key.1 < b.key.1 || (a.key.1 = b.key.1 && a.key.2 ≤ b.key.2)

/-- The pieces of a text between slashes; there is always at least one. -/
def piecesOf : List Char → List (List Char)
  | [] => [[]]
  | c :: rest =>
    match piecesOf rest with
    | piece :: pieces => if c = '/' then [] :: piece :: pieces else (c :: piece) :: pieces
    | [] => [[c]]

/-- The texts of a path between its slashes, empty ones included. -/
def pieces (path : Path) : List String :=
  (piecesOf path.text.toList).map String.ofList

/-- Whether a path starts from the root. -/
def isAbsolute (path : Path) : Bool :=
  path.text.toList.head? = some '/'

/-- Where a path starts from. -/
inductive Start where
  | root
  | here
  | anywhere
deriving DecidableEq, Repr

/-- Where a path starts from, and its pieces after the start. -/
def parts (path : Path) : Start × List String :=
  match path.pieces with
  | "" :: rest => if rest = [] then (.anywhere, []) else (.root, rest)
  | "." :: rest => (.here, rest)
  | pieces => (.anywhere, pieces)

/-- The path of a start and pieces. -/
def ofParts : Start → List String → Path
  | .root, pieces => ⟨"/" ++ "/".intercalate pieces⟩
  | .here, pieces => ⟨"/".intercalate ("." :: pieces)⟩
  | .anywhere, pieces => ⟨"/".intercalate pieces⟩

/-- Whether a piece after the start counts. -/
def isStep (piece : String) : Bool :=
  piece ≠ "" && piece ≠ "."

/-- The component that a piece stands for. -/
def Component.ofPiece (piece : String) : Component :=
  if piece = ".." then .up else .name piece

def Start.components : Start → List Component
  | .root => [.root]
  | .here => [.here]
  | .anywhere => []

/-- The steps of a path. -/
def components (path : Path) : List Component :=
  path.parts.1.components ++ (path.parts.2.filter isStep).map Component.ofPiece

/-- Whether one path does not come after another: component by component. -/
def le (a b : Path) : Bool :=
  go a.components b.components
where
  go : List Component → List Component → Bool
    | [], _ => true
    | _ :: _, [] => false
    | a :: as, b :: bs => if a = b then go as bs else a.le b

/-- The pieces without those at the end that do not count. -/
def trimPieces (pieces : List String) : List String :=
  (pieces.reverse.dropWhile fun piece => !isStep piece).reverse

/-- The path without its last component.  Nothing is above the root. -/
def parent? (path : Path) : Option Path :=
  let (start, pieces) := path.parts
  match trimPieces pieces with
  | [] => if start = .here then some ⟨""⟩ else none
  | steps => some (ofParts start (trimPieces steps.dropLast))

/-- The name that a path ends with. -/
def fileName? (path : Path) : Option String :=
  match path.components.getLast? with
  | some (.name text) => some text
  | _ => none

/-- A name cut at its last point, unless the point comes first. -/
def cutName (name : String) : String × Option String :=
  let reversed := name.toList.reverse
  let after := reversed.takeWhile (· ≠ '.')
  match reversed.dropWhile (· ≠ '.') with
  | '.' :: c :: before => (.ofList (c :: before).reverse, some (.ofList after.reverse))
  | _ => (name, none)

/-- The name that a path ends with, without its extension. -/
def stem? (path : Path) : Option String :=
  path.fileName?.map fun name => (cutName name).1

/-- The extension of the name that a path ends with. -/
def extension? (path : Path) : Option String :=
  path.fileName?.bind fun name => (cutName name).2

/-- The path of a name below another path.  An absolute name stands for itself. -/
def join (path : Path) (name : String) : Path :=
  if (Path.mk name).isAbsolute then ⟨name⟩
  else if path.text = "" ∨ path.text.toList.getLast? = some '/' then ⟨path.text ++ name⟩
  else ⟨path.text ++ "/" ++ name⟩

/-- Whether two texts are the same but for the case of ASCII letters. -/
def sameIgnoringCase (a b : String) : Bool :=
  a.toList.map Char.toLower = b.toList.map Char.toLower

/-- Whether a path has one of some extensions, whatever the case of their letters. -/
def hasExtension (path : Path) (extensions : List String) : Bool :=
  match path.extension? with
  | some given => extensions.any fun wanted => sameIgnoringCase wanted given
  | none => false

/-- What a file is called in messages. -/
def title (path : Path) : String :=
  path.fileName?.getD path.text

/-- What artifacts of a file are called, without their extension. -/
def artifactStem (path : Path) : String :=
  path.stem?.getD "out"

/-- The path of an artifact in a directory. -/
def artifact (directory : Path) (stem extension : String) : Path :=
  directory.join (stem ++ "." ++ extension)

end Path

end SyntaxForest
