import SyntaxForest.Forest.Text
import SyntaxForest.Proofs.DotText

/-! What the DOT text of a forest shows.  A node is drawn from its number, label,
shape, color, filling and size, and all of these can be read off its statement;
its category and the tree node it stands for cannot.  Two forests with one text
look the same, node by node and edge by edge, whatever stands in their labels and
colors. -/

namespace SyntaxForest

/-! ## Names -/

/-- A number is told by its decimal digits. -/
theorem decimal_injective : Function.Injective (toString : Nat → String) := by
  intro n k h
  have hdigits : Nat.toDigits 10 n = Nat.toDigits 10 k := by
    rw [Nat.toString_eq_ofList_toDigits, Nat.toString_eq_ofList_toDigits] at h
    exact String.ofList_injective h
  have hvalue := congrArg (fun digits => Nat.ofDigitChars 10 digits 0) hdigits
  simpa using hvalue

theorem isDigit_of_mem_toString {n : Nat} {c : Char} (h : c ∈ (toString n).toList) :
    c.isDigit = true := by
  rw [Nat.toString_eq_ofList_toDigits, String.toList_ofList] at h
  exact Nat.isDigit_of_mem_toDigits (by decide) (Nat.le_refl 10) h

theorem Shape.mem_all (shape : Shape) : shape ∈ Shape.all := by
  cases shape <;> decide

/-- A shape is found under its own name, and so no other has it. -/
theorem Shape.ofName?_name (shape : Shape) : Shape.ofName? shape.name = some shape := by
  have hall : ∀ each ∈ Shape.all, Shape.ofName? each.name = some each := by decide +kernel
  exact hall shape shape.mem_all

theorem Shape.name_injective : Function.Injective Shape.name := by
  intro shape other h
  have hfound := Shape.ofName?_name shape
  rw [h, Shape.ofName?_name] at hfound
  exact (Option.some.inj hfound).symm

namespace Forest

theorem dotName_injective : Function.Injective dotName := by
  intro id other h
  have hdigits : "n".toList ++ (toString id).toList = "n".toList ++ (toString other).toList := by
    rw [← String.toList_append, ← String.toList_append]
    exact congrArg String.toList h
  exact decimal_injective (String.toList_inj.mp (List.append_cancel_left hdigits))

theorem isName_dotName (id : Nat) : Dot.IsName (dotName id) := by
  intro c hc
  rw [dotName, String.toList_append] at hc
  rcases List.mem_append.mp hc with hc | hc
  · obtain rfl : c = 'n' := by simpa using hc
    decide
  · rw [Char.isAlphanum, isDigit_of_mem_toString hc, Bool.or_true]

/-! ## Nodes and edges -/

/-- What a drawing shows of a node. -/
structure Look where
  id : Nat
  label : String
  shape : Shape
  color : String
  filled : Bool
  size : Size
deriving DecidableEq, Repr

def Node.look (node : Node) : Look where
  id := node.id
  label := node.label
  shape := node.shape
  color := node.color
  filled := node.filled
  size := node.size

/-- A node's statement shows its look, all of it and nothing else. -/
theorem Node.dot_eq_dot_iff {node other : Node} :
    node.dot = other.dot ↔ node.look = other.look := by
  have hnumber (n k : UInt32) : n.toNat.repr = k.toNat.repr ↔ n = k := by
    rw [← UInt32.toNat_inj]
    exact decimal_injective.eq_iff
  have hsize (s t : Size) : s = t ↔ s.width = t.width ∧ s.height = t.height := by
    cases s
    cases t
    simp
  obtain ⟨id, source, category, label, shape, color, filled, size⟩ := node
  obtain ⟨id', source', category', label', shape', color', filled', size'⟩ := other
  -- a filled node has one pair more than a solid one, so the two never agree
  cases filled <;> cases filled' <;>
    simp [Node.dot, Node.look, dotName_injective.eq_iff, Shape.name_injective.eq_iff, hnumber,
      hsize]

theorem Edge.dot_injective : Function.Injective Edge.dot := by
  intro ⟨start, stop⟩ ⟨start', stop'⟩ h
  obtain ⟨hstart, hstop⟩ := Dot.Statement.edge.inj h
  exact congrArg₂ Edge.mk (dotName_injective hstart) (dotName_injective hstop)

/-- Two lists of nodes have the same statements just when they look the same. -/
theorem map_dot_eq_map_dot_iff {nodes others : List Node} :
    nodes.map Node.dot = others.map Node.dot ↔ nodes.map Node.look = others.map Node.look := by
  induction nodes generalizing others with
  | nil => cases others <;> simp
  | cons node nodes ih =>
    cases others with
    | nil => simp
    | cons other others => simp [Node.dot_eq_dot_iff, ih]

/-! ## The statements of a forest -/

theorem Node.dot_wellNamed (node : Node) : node.dot.WellNamed := by
  refine ⟨isName_dotName _, fun each heach => Dot.IsName.of_all ?_⟩
  simp only [List.mem_append, List.mem_cons, List.not_mem_nil, or_false] at heach
  -- the keys are fixed; only the values come from the node
  rcases heach with ((rfl | rfl | rfl) | hstyle) | rfl | rfl | rfl
  case inl.inr =>
    split at hstyle <;> simp only [List.mem_cons, List.not_mem_nil, or_false] at hstyle
    · rcases hstyle with rfl | rfl <;> dsimp only <;> decide
    · subst hstyle
      decide
  all_goals dsimp only; decide

theorem dotStatements_wellNamed (forest : Forest) (canvas : Canvas) :
    ∀ statement ∈ forest.dotStatements canvas, statement.WellNamed := by
  intro statement hstatement
  simp only [dotStatements, List.mem_append] at hstatement
  rcases hstatement with ((hcanvas | hnode) | hblank) | hedge
  · simp only [List.mem_cons, List.not_mem_nil, or_false] at hcanvas
    rcases hcanvas with rfl | rfl | rfl
    · exact Dot.IsName.of_all (by decide)
    · exact Dot.IsName.of_all (by decide)
    · exact trivial
  · obtain ⟨node, _, rfl⟩ := List.mem_map.mp hnode
    exact node.dot_wellNamed
  · split at hblank
    · exact absurd hblank List.not_mem_nil
    · rw [List.mem_singleton.mp hblank]
      exact trivial
  · obtain ⟨edge, _, rfl⟩ := List.mem_map.mp hedge
    exact ⟨isName_dotName _, isName_dotName _⟩

theorem length_dotStatements (forest : Forest) (canvas : Canvas) :
    (forest.dotStatements canvas).length =
      3 + forest.nodes.size + (if forest.edges.isEmpty then 0 else forest.edges.size + 1) := by
  by_cases hnone : forest.edges.isEmpty
  · have hsize : forest.edges.size = 0 := by simpa using hnone
    simp [dotStatements, hnone, hsize]
    omega
  · simp [dotStatements, hnone]
    omega

/-- Whether a statement is that of a node. -/
def isNodeStatement : Dot.Statement → Bool
  | .node _ _ => true
  | _ => false

/-- The blank line and the edges after the nodes. -/
def edgeStatements (edges : List Edge) : List Dot.Statement :=
  (if edges.isEmpty then [] else [.blank]) ++ edges.map Edge.dot

theorem edgeStatements_injective : Function.Injective edgeStatements := by
  intro edges others h
  cases edges with
  | nil =>
    cases others with
    | nil => rfl
    | cons other others => simp [edgeStatements] at h
  | cons edge edges =>
    cases others with
    | nil => simp [edgeStatements] at h
    | cons other others => exact Edge.dot_injective.list_map (List.append_cancel_left h)

/-- The nodes end where the statements of nodes end, so the statements tell what is
drawn and on which canvas. -/
theorem dotStatements_eq_iff {forest other : Forest} {canvas canvas' : Canvas} :
    forest.dotStatements canvas = other.dotStatements canvas' ↔
      canvas.dpi = canvas'.dpi ∧ canvas.inches = canvas'.inches ∧
        forest.nodes.toList.map Node.look = other.nodes.toList.map Node.look ∧
        forest.edges = other.edges := by
  have hparts (each : Forest) (on : Canvas) : each.dotStatements on =
      .attribute "dpi" (toString on.dpi.toNat) :: .attribute "size" on.inches :: .blank ::
        (each.nodes.toList.map Node.dot ++ edgeStatements each.edges.toList) := by
    simp [dotStatements, edgeStatements]
  have hnodes (each : Forest) :
      ∀ statement ∈ each.nodes.toList.map Node.dot, isNodeStatement statement = true := by
    intro statement hstatement
    obtain ⟨node, _, rfl⟩ := List.mem_map.mp hstatement
    rfl
  have hedges (edges : List Edge) :
      ∀ statement ∈ (edgeStatements edges).head?, isNodeStatement statement = false := by
    cases edges <;> simp [edgeStatements, isNodeStatement]
  rw [hparts, hparts]
  constructor
  · intro h
    obtain ⟨hdpi, htail⟩ := List.cons.inj h
    obtain ⟨hinches, htail⟩ := List.cons.inj htail
    obtain ⟨hlook, htail⟩ := run_append_inj (hnodes forest) (hnodes other) (hedges _) (hedges _)
      (List.cons.inj htail).2
    exact ⟨UInt32.toNat_inj.mp (decimal_injective (Dot.Statement.attribute.inj hdpi).2),
      (Dot.Statement.attribute.inj hinches).2, map_dot_eq_map_dot_iff.mp hlook,
      Array.toList_inj.mp (edgeStatements_injective htail)⟩
  · rintro ⟨hdpi, hinches, hlook, hedge⟩
    rw [hdpi, hinches, map_dot_eq_map_dot_iff.mpr hlook, hedge]

/-- Two drawings have one text just when they show the same. -/
theorem dot_eq_dot_iff {forest other : Forest} {canvas canvas' : Canvas} :
    forest.dot canvas = other.dot canvas' ↔
      canvas.dpi = canvas'.dpi ∧ canvas.inches = canvas'.inches ∧
        forest.nodes.toList.map Node.look = other.nodes.toList.map Node.look ∧
        forest.edges = other.edges := by
  rw [← dotStatements_eq_iff]
  exact ⟨Dot.graph_inj (forest.dotStatements_wellNamed canvas)
    (other.dotStatements_wellNamed canvas'), congrArg (Dot.graph "AST")⟩

/-- **A drawing in DOT loses nothing that it shows.**  Whatever stands in labels and
colors, two forests with one text have the same resolution, nodes that look the
same one by one, and the same edges; and every statement keeps to its line. -/
theorem dot_shows_all (forest other : Forest) (canvas canvas' : Canvas) :
    (forest.dot canvas = other.dot canvas' →
      canvas.dpi = canvas'.dpi ∧
        forest.nodes.toList.map Node.look = other.nodes.toList.map Node.look ∧
        forest.edges = other.edges) ∧
    (forest.dot canvas).toList.count '\n' =
      5 + forest.nodes.size + (if forest.edges.isEmpty then 0 else forest.edges.size + 1) := by
  constructor
  · intro h
    obtain ⟨hdpi, _, hlook, hedges⟩ := dot_eq_dot_iff.mp h
    exact ⟨hdpi, hlook, hedges⟩
  · rw [dot, Dot.count_newline_graph (Dot.IsName.of_all (by decide))
      (forest.dotStatements_wellNamed canvas), length_dotStatements]
    omega

/-- A node whose label would close its statement and open another, over a node
whose color would do so. -/
def breakingOut (source : Nat) (category : Category) : Forest where
  nodes := #[
    { id := 0, source, category, label := "\"];\n  n7[label=\"", shape := .box, color := "red",
      filled := true, size := ⟨2, 1⟩ },
    { id := 1, source := source + 1, category, label := "\\\x01", shape := .mDiamond,
      color := "\"\n\x7d", filled := false, size := ⟨0, 4294967295⟩ }]
  edges := #[⟨0, 1⟩]

/-- The text keeps to its nine lines, and neither the tree nodes nor the categories
stand in it. -/
theorem dot_shows_all_breakingOut :
    breakingOut 0 .block ≠ breakingOut 5 .methodDeclaration ∧
    (breakingOut 0 .block).dot ⟨⟨720, 720⟩, 72⟩ =
      (breakingOut 5 .methodDeclaration).dot ⟨⟨720, 720⟩, 72⟩ ∧
    (breakingOut 0 .block).nodes.toList.map Node.look =
      (breakingOut 5 .methodDeclaration).nodes.toList.map Node.look ∧
    ((breakingOut 0 .block).dot ⟨⟨720, 720⟩, 72⟩).toList.count '\n' = 9 := by
  obtain ⟨htold, hlines⟩ := dot_shows_all (breakingOut 0 .block) (breakingOut 5 .methodDeclaration)
    ⟨⟨720, 720⟩, 72⟩ ⟨⟨720, 720⟩, 72⟩
  have hsame : (breakingOut 0 .block).dot ⟨⟨720, 720⟩, 72⟩ =
      (breakingOut 5 .methodDeclaration).dot ⟨⟨720, 720⟩, 72⟩ :=
    dot_eq_dot_iff.mpr ⟨rfl, rfl, rfl, rfl⟩
  exact ⟨by decide, hsame, (htold hsame).2.1, hlines⟩

end Forest

end SyntaxForest
