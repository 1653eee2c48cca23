import SyntaxForest.Failure
import SyntaxForest.Java.ParseTree

/-! Java sources: a text with its parse tree.  A text may be a whole unit or only
a snippet, the body of a class.  A snippet is parsed again inside a class that is
put around it, and that class is then the container of what is drawn, unless the
second parse is the worse one.

Positions in a text are counted in bytes of its UTF-8 form.  A position is a
boundary when no character straddles it; the part of a text between two
positions exists only when both are boundaries. -/

namespace SyntaxForest.Text

/-- What follows the first `n` bytes, if a character ends there. -/
def dropBytes : Nat → List Char → Option (List Char)
  | 0, text => some text
  | _ + 1, [] => none
  | n + 1, c :: rest =>
    if c.utf8Size ≤ n + 1 then dropBytes (n + 1 - c.utf8Size) rest else none

/-- The first `n` bytes, if a character ends there. -/
def takeBytes : Nat → List Char → Option (List Char)
  | 0, _ => some []
  | _ + 1, [] => none
  | n + 1, c :: rest =>
    if c.utf8Size ≤ n + 1 then (takeBytes (n + 1 - c.utf8Size) rest).map (c :: ·) else none

/-- The part of a text between two byte positions. -/
def slice? (text : List Char) (start stop : Nat) : Option (List Char) :=
  if start ≤ stop then (dropBytes start text).bind (takeBytes (stop - start)) else none

/-- How many bytes a text takes in UTF-8. -/
def byteLength : List Char → Nat
  | [] => 0
  | c :: rest => c.utf8Size + byteLength rest

end SyntaxForest.Text

namespace SyntaxForest.Java

/-- A parser of Java texts. -/
abbrev Parser := String → ParseTree

/-- What is put before a snippet. -/
def snippetOpen : String := "class __AstvizSnippet__ \x7b\n"

/-- What is put after a snippet. -/
def snippetClose : String := "\n\x7d\n"

/-- A snippet inside its class. -/
def wrap (text : String) : String :=
  snippetOpen ++ text ++ snippetClose

/-- The kinds of declaration that mark a unit. -/
def unitMarkers : List String :=
  ["package_declaration", "import_declaration", "module_declaration", "class_declaration",
   "interface_declaration", "enum_declaration", "record_declaration",
   "annotation_type_declaration"]

/-- Whether a package, an import or a type is declared at the top, with errors or
without. -/
def looksLikeUnit (tree : ParseTree) : Bool :=
  tree.namedChildren.any fun child => unitMarkers.contains child.kind

/-- Whether a method is declared at the top. -/
def hasTopLevelMethod (tree : ParseTree) : Bool :=
  tree.namedChildren.any fun child => child.kind = "method_declaration"

/-- The text that was parsed, with its parse tree, and whether a class was put around
the text for that. -/
structure Source where
  text : String
  tree : ParseTree
  isWrapped : Bool

namespace Source

/-- The source of a text.  It is wrapped when it does not look like a unit, its
own parse has errors or a method at the top, and the wrapped parse has no more
errors than its own. -/
def ofText (parse : Parser) (text : String) : Source :=
  let direct := parse text
  if looksLikeUnit direct || (direct.errorCount = 0 && !hasTopLevelMethod direct) then
    ⟨text, direct, false⟩
  else
    let wrapped := parse (wrap text)
    if direct.errorCount < wrapped.errorCount then ⟨text, direct, false⟩
    else ⟨wrap text, wrapped, true⟩

/-- The source that a file holds. -/
def ofBytes (parse : Parser) (bytes : ByteArray) : Except Failure Source :=
  match String.fromUTF8? bytes with
  | some text => .ok (ofText parse text)
  | none => .error ((Failure.of .encodingError "source is not valid UTF-8").during "java::parse")

/-- The outermost node of what is drawn, with the kind of its parent: the root, or
for a snippet the class put around it. -/
def container (source : Source) : Option String × ParseTree :=
  if source.isWrapped then
    match source.tree.namedChildren.find? fun child => child.kind = "class_declaration" with
    | some snippet => (some source.tree.kind, snippet)
    | none => (none, source.tree)
  else (none, source.tree)

/-- The text of a node; empty when its range splits a character. -/
def textOf (source : Source) (tree : ParseTree) : List Char :=
  (Text.slice? source.text.toList tree.head.startByte tree.head.stopByte).getD []

/-- The line of a row, counted from 1 in the text that was given. -/
def line (source : Source) (row : Nat) : UInt32 :=
  UInt32.ofNat (max 1 (row + 1 - if source.isWrapped then 1 else 0))

/-- Why a row has no line: no row comes after it, so that it cannot be counted from
1. -/
inductive Fault where
  | lastRow
deriving DecidableEq, Repr

def Fault.message : Fault → String
  | .lastRow => "attempt to add with overflow"

/-- The greatest number of a row. -/
def lastRow : Nat := Nat.pow 2 64 - 1

/-- The line of any row.  The rows of nodes are those of a text, and too small to
have none. -/
def lineAt (source : Source) (row : Nat) : Except Fault UInt32 :=
  if row < lastRow then .ok (source.line row) else .error .lastRow

end Source

end SyntaxForest.Java
