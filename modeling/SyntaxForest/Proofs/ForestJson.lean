import SyntaxForest.Forest.Text
import SyntaxForest.Proofs.ForestDot
import SyntaxForest.Proofs.JsonReader

/-! What the JSON text of a forest tells.  A reader finds every node and every edge
in it, in the order in which they came, and of each node all but the tree node
that it stands for.  A drawing shows less than that, so forests with one JSON text
are drawn alike. -/

namespace SyntaxForest

/-- A category is found under its own name. -/
theorem Category.ofName?_name (category : Category) :
    Category.ofName? category.name = some category := by
  have hall : ∀ each ∈ Category.all, Category.ofName? each.name = some each := by decide +kernel
  exact hall category category.mem_all

namespace Forest

/-- What the JSON text tells of a node: its look and its category. -/
structure Entry extends Look where
  category : Category
deriving DecidableEq, Repr

/-- The look and the category of a node, without its number and its source. -/
def Node.entry (node : Node) : Entry where
  toLook := node.look
  category := node.category

/-! ## Reading -/

/-- A number of 32 bits. -/
def dots? (value : Json) : Option UInt32 :=
  value.number?.bind fun n => if h : n < UInt32.size then some (.ofNatLT n h) else none

def size? (value : Json) : Option Size := do
  let width ← value.member? "width" dots?
  let height ← value.member? "height" dots?
  some { width, height }

def Entry.ofJson? (value : Json) : Option Entry := do
  let id ← value.member? "id" Json.number?
  let category ← value.member? "category" fun name => name.string?.bind Category.ofName?
  let label ← value.member? "label" Json.string?
  let shape ← value.member? "shape" fun name => name.string?.bind Shape.ofName?
  let color ← value.member? "color" Json.string?
  let filled ← value.member? "filled" Json.bool?
  let size ← value.member? "size" size?
  some { id, category, label, shape, color, filled, size }

def Edge.ofJson? (value : Json) : Option Edge := do
  let start ← value.member? "from" Json.number?
  let stop ← value.member? "to" Json.number?
  some { start, stop }

/-- Reads the nodes and the edges of a forest. -/
def ofJsonText? (text : String) : Option (List Entry × List Edge) := do
  let value ← Json.ofText? text
  let nodes ← value.member? "nodes" (Json.array? Entry.ofJson?)
  let edges ← value.member? "edges" (Json.array? Edge.ofJson?)
  some (nodes, edges)

theorem dots?_number (n : UInt32) : dots? (.number n.toNat) = some n := by
  simp [dots?, Json.number?, n.toNat_lt]

/-- The JSON of a node stands for what it tells of the node. -/
theorem Entry.ofJson?_json (node : Node) : Entry.ofJson? node.json = some node.entry := by
  simp [Entry.ofJson?, Node.json, Json.member?, List.lookup_cons, size?, dots?_number, Json.number?,
    Json.string?, Json.bool?, Category.ofName?_name, Shape.ofName?_name, Node.entry, Node.look]

theorem Edge.ofJson?_json (edge : Edge) : Edge.ofJson? edge.json = some edge := by
  simp [Edge.ofJson?, Edge.json, Json.member?, List.lookup_cons, Json.number?]

theorem ofJsonText?_json (forest : Forest) :
    ofJsonText? forest.json.pretty =
      some (forest.nodes.toList.map Node.entry, forest.edges.toList) := by
  have hnodes := Json.array?_map Node.entry Entry.ofJson?_json forest.nodes.toList
  have hedges := Json.array?_map id Edge.ofJson?_json forest.edges.toList
  rw [ofJsonText?, Json.ofText?_pretty]
  simp [json, Json.member?, List.lookup_cons, hnodes, hedges]

/-- **A forest can be read back from its JSON text**, whatever stands in labels and
colors: every node but for the tree node it stands for, and every edge, in order.
So forests with one JSON text have one drawing. -/
theorem json_tells_forest (forest other : Forest) :
    ofJsonText? forest.json.pretty =
      some (forest.nodes.toList.map Node.entry, forest.edges.toList) ∧
    (forest.json.pretty = other.json.pretty →
      ∀ canvas : Canvas, forest.dot canvas = other.dot canvas) := by
  refine ⟨forest.ofJsonText?_json, fun h canvas => ?_⟩
  have hread := forest.ofJsonText?_json
  rw [h, other.ofJsonText?_json] at hread
  obtain ⟨hnodes, hedges⟩ := Prod.mk.inj (Option.some.inj hread)
  -- the category is all that an entry has beyond the look
  have hlook := congrArg (List.map Entry.toLook) hnodes
  rw [List.map_map, List.map_map] at hlook
  exact dot_eq_dot_iff.mpr ⟨rfl, rfl, hlook.symm, (Array.toList_inj.mp hedges).symm⟩

/-- What is on the forest is read out of strings that would break out of theirs; the
tree nodes are not, and two forests that differ in them have one text. -/
theorem json_tells_forest_breakingOut :
    breakingOut 0 .block ≠ breakingOut 5 .block ∧
    (breakingOut 0 .block).json.pretty = (breakingOut 5 .block).json.pretty ∧
    ofJsonText? (breakingOut 0 .block).json.pretty =
      some ((breakingOut 0 .block).nodes.toList.map Node.entry, [⟨0, 1⟩]) ∧
    (breakingOut 0 .block).dot ⟨⟨720, 720⟩, 72⟩ = (breakingOut 5 .block).dot ⟨⟨720, 720⟩, 72⟩ := by
  obtain ⟨hread, hdrawn⟩ := json_tells_forest (breakingOut 0 .block) (breakingOut 5 .block)
  have hsame : (breakingOut 0 .block).json.pretty = (breakingOut 5 .block).json.pretty := rfl
  exact ⟨by decide, hsame, hread, hdrawn hsame _⟩

end Forest

end SyntaxForest
