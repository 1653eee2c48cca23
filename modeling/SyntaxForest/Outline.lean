import SyntaxForest.Tree

/-! The outline of a tree: one entry for each shown node, in document order,
indented by the number of shown nodes above it. -/

namespace SyntaxForest

/-- How an outline is written: whether fields and line spans follow the category;
whether nodes of category `other` are left out, while their descendants stay; how many
spaces a level is indented by; and how deep in the tree a node may be to be shown. -/
structure Outline where
  showsFields : Bool := true
  showsLines : Bool := true
  hidesOther : Bool := true
  indent : Nat := 2
  maxDepth : Nat := 1000
deriving DecidableEq, Repr

namespace Outline

/-- The outline of categories alone. -/
def minimal : Outline :=
  { showsFields := false, showsLines := false }

/-- Whether a node is left out for its category.  The root is always kept. -/
def hides (outline : Outline) (node : Tree.Node) : Bool :=
  outline.hidesOther && node.category = .other && !node.isRoot

/-- The level of a node, given the levels of the nodes above it: one more than that
of its parent.  A hidden node adds none and takes the level of its parent. -/
def levelUnder (outline : Outline) (levels : Array Nat) (node : Tree.Node) : Nat :=
  match node.parent with
  | some parent => levels.getD parent 0 + if outline.hides node then 0 else 1
  | none => 0

/-- A value after the name of its field; a list stands in brackets. -/
def valueText : FieldValue → String
  | .list items => "[" ++ (FieldValue.list items).shown ++ "]"
  | value => value.shown

/-- The text of a node at its level, with a newline. -/
def entry (outline : Outline) (level : Nat) (node : Tree.Node) : String :=
  let blanks := String.ofList (List.replicate (level * outline.indent) ' ')
  let lines :=
    match node.span with
    | some span =>
      if outline.showsLines then " [" ++ toString span.start ++ "-" ++ toString span.stop ++ "]"
      else ""
    | none => ""
  let fields :=
    if outline.showsFields then
      String.join (node.fields.map fun entry => " " ++ entry.1.title ++ "=" ++ valueText entry.2)
    else ""
  blanks ++ node.category.name ++ lines ++ fields ++ "\n"

/-- An outline on the way: the levels of the nodes that were met, by number, and the
shown ones of them in order, each with its level. -/
structure Draft where
  levels : Array Nat
  lines : Array (Nat × Tree.Node)

/-- Takes down the level of a node at some depth, and the node itself if it is shown. -/
def visit (outline : Outline) (tree : Tree) (draft : Draft) (place : Nat × Nat) : Draft :=
  match tree.get? place.1 with
  | some node =>
    let level := outline.levelUnder draft.levels node
    { levels := draft.levels.setIfInBounds place.1 level
      lines :=
        if outline.hides node || outline.maxDepth < place.2 then draft.lines
        else draft.lines.push (level, node) }
  | none => draft

/-- The shown nodes of a tree in document order, each with its level. -/
def shown (outline : Outline) (tree : Tree) : List (Nat × Tree.Node) :=
  let blank : Draft := ⟨Array.replicate tree.size 0, #[]⟩
  ((tree.walk Tree.root).foldl (outline.visit tree) blank).lines.toList

/-- The entries of shown nodes, one after the other. -/
def write (outline : Outline) (lines : List (Nat × Tree.Node)) : String :=
  String.join (lines.map fun line => outline.entry line.1 line.2)

/-- The outline of a whole tree. -/
def text (outline : Outline) (tree : Tree) : String :=
  outline.write (outline.shown tree)

/-- How many spaces an entry may be indented by. -/
def indentLimit : Nat := 65535

/-- Why an outline is not written. -/
inductive Fault where
  | tooWide
deriving DecidableEq, Repr

def Fault.message : Fault → String
  | .tooWide => "Formatting argument out of range"

/-- Whether every shown node keeps to the limit. -/
def fits (outline : Outline) (lines : List (Nat × Tree.Node)) : Bool :=
  lines.all fun line => line.1 * outline.indent ≤ indentLimit

/-- Writes the outline of a whole tree. -/
def render (outline : Outline) (tree : Tree) : Except Fault String :=
  let lines := outline.shown tree
  if outline.fits lines then .ok (outline.write lines) else .error .tooWide

end Outline

end SyntaxForest
