import SyntaxForest.Forest
import SyntaxForest.Label
import SyntaxForest.Policy
import SyntaxForest.Tree

/-! The forest of a tree under a style sheet: the included nodes in document
order, each below its nearest ancestor that is drawn.  A node that is left out
does not part its descendants from its ancestors. -/

namespace SyntaxForest.Forest

/-- The nearest ancestor of a tree node that is drawn. -/
def nearest? (forest : Forest) (tree : Tree) (id : Nat) : Option Nat :=
  (tree.ancestors id).findSome? forest.drawn?

/-- The drawn form of a tree node. -/
def Node.ofTree (sheet : StyleSheet) (tree : Tree) (id : Nat) (node : Tree.Node) : Node :=
  let decision := sheet.decisionAt tree node
  { id := 0
    source := id
    category := node.category
    label := Label.text sheet.detailed node
    shape := decision.shape
    color := decision.color
    filled := decision.filled
    size := sheet.nodeSize }

/-- Draws a tree node if it is included, below its nearest drawn ancestor. -/
def draw (sheet : StyleSheet) (tree : Tree) (forest : Forest) (id : Nat) : Except Fault Forest :=
  match tree.get? id with
  | none => .error (.noSource id)
  | some node =>
    if (sheet.decisionAt tree node).included then do
      let (grown, output) ← forest.addNode (Node.ofTree sheet tree id node)
      match grown.nearest? tree id with
      | some above => grown.addEdge above output
      | none => .ok grown
    else .ok forest

/-- The forest of a tree. -/
def build (sheet : StyleSheet) (tree : Tree) : Except Fault Forest :=
  ((tree.walk Tree.root).map Prod.fst).foldlM (draw sheet tree) {}

end SyntaxForest.Forest
