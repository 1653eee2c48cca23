import SyntaxForest.Dot
import SyntaxForest.Forest
import SyntaxForest.Json
import SyntaxForest.Text.Quotient

/-! Forests as texts: in the DOT language, and in JSON. -/

namespace SyntaxForest

/-- The canvas of a drawing: its size in dots, and how many dots there are to an
inch. -/
structure Canvas where
  size : Size
  dpi : UInt32 := 72
deriving DecidableEq, Repr

/-- The size of a canvas in inches, to be filled whole.  No dots to the inch count
as one. -/
def Canvas.inches (canvas : Canvas) : String :=
  let dpi := max canvas.dpi.toNat 1
  Text.quotientText canvas.size.width.toNat dpi ++ "," ++
    Text.quotientText canvas.size.height.toNat dpi ++ "!"

namespace Forest

/-- The name of a drawn node in DOT. -/
def dotName (id : Nat) : String :=
  "n" ++ toString id

/-- The statement of a drawn node. -/
def Node.dot (node : Node) : Dot.Statement :=
  .node (dotName node.id) <|
    [("label", node.label), ("shape", node.shape.name), ("color", node.color)] ++
    (if node.filled then [("style", "filled"), ("fillcolor", node.color)]
      else [("style", "solid")]) ++
    [("width", toString node.size.width.toNat), ("height", toString node.size.height.toNat),
     ("fixedsize", "true")]

/-- The statement of an edge. -/
def Edge.dot (edge : Edge) : Dot.Statement :=
  .edge (dotName edge.start) (dotName edge.stop)

/-- The statements of a forest: the canvas, the nodes, and the edges if there are
any, parted by blank lines. -/
def dotStatements (forest : Forest) (canvas : Canvas) : List Dot.Statement :=
  [.attribute "dpi" (toString canvas.dpi.toNat), .attribute "size" canvas.inches, .blank] ++
    forest.nodes.toList.map Node.dot ++
    (if forest.edges.isEmpty then [] else [.blank]) ++
    forest.edges.toList.map Edge.dot

/-- The text of a forest in DOT. -/
def dot (forest : Forest) (canvas : Canvas) : String :=
  Dot.graph "AST" (forest.dotStatements canvas)

/-! ## JSON -/

/-- The JSON value of a drawn node. -/
def Node.json (node : Node) : Json :=
  .object
    [("id", .number node.id), ("category", .string node.category.name),
     ("label", .string node.label), ("shape", .string node.shape.name),
     ("color", .string node.color), ("filled", .bool node.filled),
     ("size", .object
       [("width", .number node.size.width.toNat), ("height", .number node.size.height.toNat)])]

/-- The JSON value of an edge. -/
def Edge.json (edge : Edge) : Json :=
  .object [("from", .number edge.start), ("to", .number edge.stop)]

/-- The JSON value of a forest. -/
def json (forest : Forest) : Json :=
  .object
    [("nodes", .array (forest.nodes.toList.map Node.json)),
     ("edges", .array (forest.edges.toList.map Edge.json))]

end Forest

end SyntaxForest
