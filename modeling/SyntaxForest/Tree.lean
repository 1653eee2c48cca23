import SyntaxForest.Category
import SyntaxForest.Field
import SyntaxForest.NameMap

/-! Categorised syntax trees.  The nodes of a tree are numbered in the order in
which they were added, the root being number 0, and each new node becomes the
last child of a node that is already there.  A step that names a node outside
the tree is refused with a `Tree.Fault` and leaves the tree as it was.  Numbers
fit into 32 bits as long as a tree has no more than `2 ^ 32` nodes. -/

namespace SyntaxForest

/-- The lines of a source that a node covers, counted from 1. -/
structure LineSpan where
  start : Nat
  stop : Nat
deriving DecidableEq, Repr

/-- A node of a tree, with the numbers of its parent, which the root has not, and of
its children, in source order.  Its fields are in the order in which they were first
set. -/
structure Tree.Node where
  category : Category
  parent : Option Nat
  children : List Nat := []
  fields : List (Field × FieldValue) := []
  span : Option LineSpan := none
deriving DecidableEq, Repr

namespace Tree.Node

/-- Whether the node is the root of its tree. -/
def isRoot (node : Node) : Bool :=
  node.parent.isNone

/-- The value of a field. -/
def field? (node : Node) (field : Field) : Option FieldValue :=
  node.fields.lookup field

/-- The value of a field that holds a text. -/
def text? (node : Node) (field : Field) : Option String :=
  match node.field? field with
  | some (.text text) => some text
  | _ => none

/-- The items of a field that holds a list, and none for any other. -/
def list (node : Node) (field : Field) : List String :=
  match node.field? field with
  | some (.list items) => items
  | _ => []

/-- The value of a field that holds a flag. -/
def flag? (node : Node) (field : Field) : Option Bool :=
  match node.field? field with
  | some (.flag flag) => some flag
  | _ => none

end Tree.Node

/-- Why a step on a tree is refused: a node was to be added under a parent that is not
there, or one was looked up or was to be changed that is not there. -/
inductive Tree.Fault where
  | noParent (parent : Nat)
  | noNode (id : Nat)
  | outOfRange (size id : Nat)
deriving DecidableEq, Repr

/-- The text of a refusal. -/
def Tree.Fault.message : Tree.Fault → String
  | .noParent parent => "parent " ++ toString parent ++ " not in tree"
  | .noNode id => "source node not found: " ++ toString id
  | .outOfRange size id =>
    "index out of bounds: the len is " ++ toString size ++ " but the index is " ++ toString id

/-- A categorised syntax tree, as its nodes by number. -/
structure Tree where
  nodes : Array Tree.Node
deriving DecidableEq, Repr

namespace Tree

/-- The number of the root. -/
def root : Nat := 0

/-- The tree of one node. -/
def singleton (category : Category) : Tree :=
  ⟨#[{ category, parent := none }]⟩

/-- How many nodes the tree has. -/
def size (tree : Tree) : Nat :=
  tree.nodes.size

/-- The node of a number. -/
def get? (tree : Tree) (id : Nat) : Option Node :=
  tree.nodes[id]?

/-- The node of a number that has to be there. -/
def node (tree : Tree) (id : Nat) : Except Fault Node :=
  match tree.get? id with
  | some node => .ok node
  | none => .error (.noNode id)

/-- The tree with one more node, the last child of `parent`. -/
def add (tree : Tree) (parent : Nat) (node : Node) : Tree :=
  ⟨(tree.nodes.push node).modify parent fun above =>
    { above with children := above.children ++ [tree.size] }⟩

/-- Adds a node as the last child of `parent` and returns its number. -/
def push (tree : Tree) (category : Category) (parent : Nat) : Except Fault (Tree × Nat) :=
  if parent < tree.size then
    .ok (tree.add parent { category, parent := some parent }, tree.size)
  else .error (.noParent parent)

/-- Changes the node of a number. -/
def modify (tree : Tree) (id : Nat) (change : Node → Node) : Except Fault Tree :=
  if id < tree.size then .ok ⟨tree.nodes.modify id change⟩
  else .error (.outOfRange tree.size id)

/-- Sets a field of a node, in place of any value it had. -/
def setField (tree : Tree) (id : Nat) (field : Field) (value : FieldValue) : Except Fault Tree :=
  tree.modify id fun node => { node with fields := setEntry field value node.fields }

/-- Sets the lines that a node covers. -/
def setSpan (tree : Tree) (id : Nat) (span : LineSpan) : Except Fault Tree :=
  tree.modify id fun node => { node with span := some span }

/-- The parent of a node. -/
def parent? (tree : Tree) (id : Nat) : Option Nat :=
  (tree.get? id).bind Node.parent

/-- The children of a node, in source order. -/
def children (tree : Tree) (id : Nat) : List Nat :=
  match tree.get? id with
  | some node => node.children
  | none => []

/-- The proper ancestors of a node, nearest first.  A parent was there before
its children, so it has the smaller number and the chain ends. -/
def ancestors (tree : Tree) (id : Nat) : List Nat :=
  match tree.parent? id with
  | none => []
  | some parent => if _h : parent < id then parent :: tree.ancestors parent else []
termination_by id

/-! ## Document order -/

/-- One round of a walk: the node on top of the stack is reported with its depth,
and its children are pushed one deeper, the last of them first.  An empty stack
ends the walk. -/
def nextVisit? (tree : Tree) : List (Nat × Nat) → Option ((Nat × Nat) × List (Nat × Nat))
  | [] => none
  | (id, depth) :: pending =>
    some ((id, depth),
      (tree.children id).reverse.foldl (fun stack child => (child, depth + 1) :: stack) pending)

/-- The visits that a walk reports from a stack of pending nodes on.  Every unit of
`fuel` pays for one round. -/
def walkFrom (tree : Tree) : Nat → List (Nat × Nat) → List (Nat × Nat)
  | 0, _ => []
  | fuel + 1, stack =>
    match tree.nextVisit? stack with
    | none => []
    | some (visit, pending) => visit :: tree.walkFrom fuel pending

/-- The nodes below and including `start` in document order, each with its depth
below `start`. -/
def walk (tree : Tree) (start : Nat) : List (Nat × Nat) :=
  tree.walkFrom tree.size [(start, 0)]

end Tree

end SyntaxForest
