import SyntaxForest.Java.Fields
import SyntaxForest.Tree

/-! The categorised tree of a Java source: its container and the parts of the
program below it, numbered in document order. -/

namespace SyntaxForest.Java.Source

/-- The lines that a node covers. -/
def span (source : Source) (tree : ParseTree) : LineSpan where
  start := (source.line tree.head.startRow).toNat
  stop := (source.line tree.head.stopRow).toNat

/-- The tree node of a parse tree node. -/
def treeNode (source : Source) (category : Category) (parent : Option Nat) (tree : ParseTree) :
    Tree.Node where
  category
  parent
  fields := source.fields category tree
  span := some (source.span tree)

mutual

/-- Adds a parse tree below a node of a growing tree. -/
def plant (source : Source) (above : String) (parent : Nat) (grown : Tree) : ParseTree → Tree
  | .node head children =>
    let tree := ParseTree.node head children
    let node := source.treeNode (tree.category (some above)) (some parent) tree
    plantAll source head.kind grown.size (grown.add parent node) children

/-- Adds the parse trees of a list that are part of the program, in order. -/
def plantAll (source : Source) (above : String) (parent : Nat) (grown : Tree) :
    List ParseTree → Tree
  | [] => grown
  | tree :: trees =>
    plantAll source above parent
      (if tree.isPart then plant source above parent grown tree else grown) trees

end

/-- The category of the container.  A container stands for itself, also when it
was found among statements. -/
def containerCategory (source : Source) : Category :=
  match source.container.2.category source.container.1 with
  | .typeDeclarationStatement => .typeDeclaration
  | category => category

/-- The categorised tree of a source. -/
def project (source : Source) : Tree :=
  let container := source.container.2
  plantAll source container.kind Tree.root
    ⟨#[source.treeNode source.containerCategory none container]⟩ container.children

end SyntaxForest.Java.Source
