import SyntaxForest.CommandLine.Options
import SyntaxForest.Java.Rows
import SyntaxForest.Java.Source

/-! Parse trees that are kept beside their sources.  The table of a source has the
name of the source with `.tree` after it, and that of the source inside its class
has `.wrapped.tree` after it. -/

namespace SyntaxForest.ParseTables

/-- The text of a file. -/
def text? (store : FileStore) (location : Location) : Option String :=
  match store.get? location with
  | some (.file id) => String.fromUTF8? (store.file id).content
  | _ => none

/-- A location with something after its last name. -/
def beside (location : Location) (ending : String) : Location :=
  match location.getLast? with
  | some name => location.dropLast ++ [name ++ ending]
  | none => []

/-- The tree of a table. -/
def tree? (store : FileStore) (location : Location) : Option Java.ParseTree :=
  (text? store location).bind Java.ParseTree.ofTable?

/-- The texts of a source, each with its tree. -/
def ofSource (store : FileStore) (location : Location) : List (String × Java.ParseTree) :=
  match text? store location with
  | none => []
  | some text =>
    ((tree? store (beside location ".tree")).map (text, ·)).toList ++
      ((tree? store (beside location ".wrapped.tree")).map (Java.wrap text, ·)).toList

/-- The texts of all sources, each with its tree. -/
def all (store : FileStore) : List (String × Java.ParseTree) :=
  store.entries.flatMap fun entry =>
    if (Path.mk (entry.1.getLast?.getD "")).hasExtension sourceExtensions then
      ofSource store entry.1
    else []

/-- The tree of an empty unit. -/
def emptyUnit : Java.ParseTree :=
  .node (.ofFlags "program" 1 none 0 0 0 0) []

/-- The parser that looks texts up; a text that is not found is taken for an empty
unit. -/
def parser (store : FileStore) : Java.Parser :=
  let trees := all store
  fun text => (trees.lookup text).getD emptyUnit

end SyntaxForest.ParseTables
