/-! Graphs in the DOT language: a named graph of attribute, node and edge
statements, one to a line, with quoted values. -/

namespace SyntaxForest.Dot

/-- A text with other characters in place of each occurrence of one. -/
def replaceAll (old : Char) (new text : List Char) : List Char :=
  text.flatMap fun c => if c = old then new else [c]

/-- A text as it stands inside quotes.  Backslashes are doubled before the other two
get one of their own. -/
def escape (text : String) : String :=
  let backslashes := replaceAll '\\' ['\\', '\\'] text.toList
  let quotes := replaceAll '"' ['\\', '"'] backslashes
  String.ofList (replaceAll '\n' ['\\', 'n'] quotes)

/-- A key with its quoted value. -/
def pair (key value : String) : String :=
  key ++ "=\"" ++ escape value ++ "\""

/-- One line of a graph. -/
inductive Statement where
  | attribute (key value : String)
  | blank
  | node (id : String) (attributes : List (String × String))
  | edge (start stop : String)
deriving DecidableEq, Repr

/-- The line of a statement, with its newline. -/
def Statement.text : Statement → String
  | .attribute key value => "  " ++ pair key value ++ ";\n"
  | .blank => "\n"
  | .node id attributes =>
    "  " ++ id ++ "[" ++ ", ".intercalate (attributes.map fun each => pair each.1 each.2) ++ "];\n"
  | .edge start stop => "  " ++ start ++ " -> " ++ stop ++ ";\n"

/-- The text of a graph. -/
def graph (name : String) (statements : List Statement) : String :=
  "digraph " ++ name ++ " \x7b\n" ++ String.join (statements.map Statement.text) ++ "\x7d\n"

end SyntaxForest.Dot
