import SyntaxForest.StyleSheet
import SyntaxForest.Tree

/-! Which nodes of a tree are drawn, and how.  On top of the style of a category
stand two rules: expressions are left out together, and the outermost container
of a tree is never drawn.  The container of a unit is the unit and the types
directly under it. -/

namespace SyntaxForest

/-- What is decided about a category or a node. -/
structure Decision where
  included : Bool
  shape : Shape
  color : String
  filled : Bool
deriving DecidableEq, Repr

namespace StyleSheet

/-- The decision about a category. -/
def decision (sheet : StyleSheet) (category : Category) : Decision where
  included :=
    category.isVisitable && (sheet.style category).visit &&
      !(category.isExpression && !sheet.includeExpressions)
  shape := (sheet.style category).shape
  color := (sheet.style category).color
  filled := sheet.fillNodes

/-- Whether a node is a type directly under a unit. -/
def isOutermostType (tree : Tree) (node : Tree.Node) : Bool :=
  node.category = .typeDeclaration && node.parent = some Tree.root &&
    (tree.get? Tree.root).any (·.category = .compilationUnit)

/-- The decision about a node where it stands. -/
def decisionAt (sheet : StyleSheet) (tree : Tree) (node : Tree.Node) : Decision :=
  let plain := sheet.decision node.category
  if node.isRoot || isOutermostType tree node then { plain with included := false }
  else plain

/-- Whether the node of a number is drawn. -/
def includes (sheet : StyleSheet) (tree : Tree) (id : Nat) : Bool :=
  (tree.get? id).any fun node => (sheet.decisionAt tree node).included

end StyleSheet

end SyntaxForest
