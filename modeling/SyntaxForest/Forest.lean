import SyntaxForest.StyleSheet

/-! Forests of drawn nodes.  Nodes and edges are only ever added, and both keep
the order in which they came; a node has its place among the nodes as its
number.  Beside them, a forest keeps the node of every source and the parent of
every node, so that neither has to be searched for.  An addition that would spoil
the forest is refused with a `Forest.Fault`. -/

namespace SyntaxForest

/-- A drawn node; its source is the number of the tree node that it stands for. -/
structure Forest.Node where
  id : Nat
  source : Nat
  category : Category
  label : String
  shape : Shape
  color : String
  filled : Bool
  size : Size
deriving DecidableEq, Repr

/-- An edge from a drawn node to one below it. -/
structure Forest.Edge where
  start : Nat
  stop : Nat
deriving DecidableEq, Repr

/-- Why an addition is refused.  A tree node cannot be drawn when it is not there or is
drawn already. -/
inductive Forest.Fault where
  | noSource (source : Nat)
  | drawnTwice (source : Nat)
  | noStart (start : Nat)
  | noStop (stop : Nat)
  | selfLoop (id : Nat)
  | secondParent (stop : Nat)
deriving DecidableEq, Repr

/-- The text of a refusal. -/
def Forest.Fault.message : Forest.Fault → String
  | .noSource source => "source node not found: " ++ toString source
  | .drawnTwice source => "source node " ++ toString source ++ " registered twice"
  | .noStart start => "edge source " ++ toString start ++ " missing"
  | .noStop stop => "edge target " ++ toString stop ++ " missing"
  | .selfLoop id => "assertion `left != right` failed: self-loop on " ++ toString id
  | .secondParent stop => toString stop ++ " already has a parent"

/-- Drawn nodes with the edges between them, the numbers of the nodes by their sources,
and the parents of the nodes by their numbers. -/
structure Forest where
  nodes : Array Forest.Node := #[]
  edges : Array Forest.Edge := #[]
  bySource : List (Nat × Nat) := []
  parents : Array (Option Nat) := #[]
deriving DecidableEq, Repr

namespace Forest

/-- How many nodes are drawn. -/
def size (forest : Forest) : Nat :=
  forest.nodes.size

/-- The number of the next node, in 32 bits. -/
def nextId (forest : Forest) : UInt32 :=
  .ofNat forest.size

/-- The drawn node of a number. -/
def get? (forest : Forest) (id : Nat) : Option Node :=
  forest.nodes[id]?

/-- The drawn node that stands for a tree node. -/
def drawn? (forest : Forest) (source : Nat) : Option Nat :=
  forest.bySource.lookup source

/-- The drawn node directly above another. -/
def parent? (forest : Forest) (id : Nat) : Option Nat :=
  forest.parents[id]?.join

/-- The nodes that have no parent. -/
def roots (forest : Forest) : List Node :=
  forest.nodes.toList.filter fun node => (forest.parent? node.id).isNone

/-- Adds a node under the next number, whatever number it comes with. -/
def addNode (forest : Forest) (node : Node) : Except Fault (Forest × Nat) :=
  if (forest.drawn? node.source).isSome then .error (.drawnTwice node.source)
  else
    .ok
      ({ forest with
          bySource := setEntry node.source forest.size forest.bySource
          nodes := forest.nodes.push { node with id := forest.size }
          parents := forest.parents.push none },
        forest.size)

/-- Adds an edge between two drawn nodes. -/
def addEdge (forest : Forest) (start stop : Nat) : Except Fault Forest :=
  if ¬ start < forest.size then .error (.noStart start)
  else if ¬ stop < forest.size then .error (.noStop stop)
  else if start = stop then .error (.selfLoop start)
  else if (forest.parent? stop).isSome then .error (.secondParent stop)
  else
    .ok { forest with
      parents := forest.parents.setIfInBounds stop (some start)
      edges := forest.edges.push ⟨start, stop⟩ }

end Forest

end SyntaxForest
