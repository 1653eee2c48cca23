import Mathlib.Data.Set.Function
import Mathlib.Order.Interval.Set.Defs
import SyntaxForest.Proofs.OutlineLevels
import SyntaxForest.Proofs.TreeCopies

/-! The numbers of the nodes do not show.  Two trees that differ only in the order
in which their nodes were added have the same drawing and the same outline. -/

namespace SyntaxForest

/-- `place` renumbers `first` as `second`: one to one, the root remains the root,
and categories, fields, lines and lists of children are kept. -/
structure Tree.Renumbering (first second : Tree) (place : Nat → Nat) : Prop where
  bijOn : Set.BijOn place (Set.Iio first.size) (Set.Iio second.size)
  root_eq : place root = root
  get? : ∀ {id node}, first.get? id = some node →
    ∃ moved, second.get? (place id) = some moved ∧ moved.category = node.category ∧
      moved.fields = node.fields ∧ moved.span = node.span ∧
      moved.children = node.children.map place

namespace Tree.Renumbering
variable {first second : Tree} {place : Nat → Nat}

theorem copy (e : first.Renumbering second place) : first.Copy second place where
  get? := by
    intro id node hnode
    obtain ⟨moved, hmoved, hcategory, hfields, _, hchildren⟩ := e.get? hnode
    exact ⟨moved, hmoved, hcategory, hfields, hchildren⟩

/-- Parents are renumbered along, though only children were asked to be. -/
theorem parent?_eq (e : first.Renumbering second place) (h₁ : first.Linked) (h₂ : second.Linked)
    {id : Nat} (hid : id < first.size) :
    second.parent? (place id) = (first.parent? id).map place := by
  by_cases hroot : id = root
  · rw [hroot, e.root_eq, h₁.parent?_root, h₂.parent?_root]
    rfl
  · obtain ⟨parent, hparent⟩ := h₁.exists_parent hid hroot
    rw [hparent]
    exact e.copy.isParent h₁ h₂ hparent

theorem ancestors_eq (e : first.Renumbering second place) (h₁ : first.Linked) (h₂ : second.Linked)
    {id : Nat} (hid : id < first.size) :
    second.ancestors (place id) = (first.ancestors id).map place := by
  rw [e.copy.ancestors_eq h₁ h₂ hid, e.root_eq, ancestors_of_parent?_eq_none h₂.parent?_root,
    List.append_nil]

theorem preorder_eq (e : first.Renumbering second place) (h₁ : first.Linked)
    (h₂ : second.Linked) : second.preorder root = (first.preorder root).map place := by
  rw [← e.copy.preorder_eq h₁ h₂ h₁.root_lt_size, e.root_eq]

/-- The node under its new number, with its parent under its own. -/
theorem exists_moved (e : first.Renumbering second place) (h₁ : first.Linked)
    (h₂ : second.Linked) {id : Nat} {node : Node} (hnode : first.get? id = some node) :
    ∃ moved, second.get? (place id) = some moved ∧ moved.category = node.category ∧
      moved.fields = node.fields ∧ moved.span = node.span ∧
      moved.parent = node.parent.map place := by
  obtain ⟨moved, hmoved, hcategory, hfields, hspan, _⟩ := e.get? hnode
  refine ⟨moved, hmoved, hcategory, hfields, hspan, ?_⟩
  rw [← parent?_of_get? hmoved, ← parent?_of_get? hnode,
    e.parent?_eq h₁ h₂ (lt_size_of_get? hnode)]

/-! ## The drawing -/

theorem isOutermostType_eq (e : first.Renumbering second place) (h₁ : first.Linked)
    (h₂ : second.Linked) {id : Nat} {node moved : Node} (hnode : first.get? id = some node)
    (hcategory : moved.category = node.category) (hparent : moved.parent = node.parent.map place) :
    StyleSheet.isOutermostType second moved = StyleSheet.isOutermostType first node := by
  obtain ⟨top, htop⟩ := exists_get? h₁.root_lt_size
  obtain ⟨top', htop', htopCategory, _⟩ := e.get? htop
  rw [e.root_eq] at htop'
  have hunder : node.parent.map place = some root ↔ node.parent = some root := by
    constructor
    · intro h
      obtain ⟨parent, hp, hroot⟩ := Option.map_eq_some_iff.mp h
      have hlt : parent < first.size := by
        have hp' := (parent?_of_get? hnode).trans hp
        exact Nat.lt_trans (h₁.parent_lt hp') (lt_size_of_get? hnode)
      rw [hp, e.copy.inj h₁ h₂ hlt h₁.root_lt_size (hroot.trans e.root_eq.symm)]
    · intro h
      rw [h, Option.map_some, e.root_eq]
  simp [StyleSheet.isOutermostType, hcategory, hparent, hunder, htop, htop', htopCategory]

/-- The same nodes are included. -/
theorem includes_eq (e : first.Renumbering second place) (h₁ : first.Linked) (h₂ : second.Linked)
    (sheet : StyleSheet) {id : Nat} (hid : id < first.size) :
    sheet.includes second (place id) = sheet.includes first id := by
  obtain ⟨node, hnode⟩ := exists_get? hid
  obtain ⟨moved, hmoved, hcategory, _, _, hparent⟩ := e.exists_moved h₁ h₂ hnode
  have houter := e.isOutermostType_eq h₁ h₂ hnode hcategory hparent
  have hroot : moved.isRoot = node.isRoot := by simp [Node.isRoot, hparent]
  simp [StyleSheet.includes, StyleSheet.decisionAt, hnode, hmoved, hcategory, houter, hroot]

/-- The splices are the same up to the sources. -/
theorem splice_eq (e : first.Renumbering second place) (h₁ : first.Linked) (h₂ : second.Linked)
    (sheet : StyleSheet) :
    Forest.splice sheet second (second.preorder root) =
      (Forest.splice sheet first (first.preorder root)).relabel place := by
  rw [e.preorder_eq h₁ h₂]
  refine Forest.splice_map_place e.copy h₁ h₂ (fun id => e.includes_eq h₁ h₂ sheet) ?_
    fun id => (mem_preorder_root_iff h₁).mp
  intro above habove
  rw [e.root_eq, ancestors_of_parent?_eq_none h₂.parent?_root] at habove
  exact absurd habove List.not_mem_nil

end Tree.Renumbering

/-! ## The outline -/

namespace Tree.Renumbering
variable {first second : Tree} {place : Nat → Nat}

theorem hides_eq {node moved : Node} (hcategory : moved.category = node.category)
    (hparent : moved.parent = node.parent.map place) (outline : Outline) :
    outline.hides moved = outline.hides node := by
  simp [Outline.hides, Node.isRoot, hcategory, hparent]

/-- The same nodes are hidden. -/
theorem isHidden_eq (e : first.Renumbering second place) (h₁ : first.Linked) (h₂ : second.Linked)
    (outline : Outline) {id : Nat} (hid : id < first.size) :
    outline.isHidden second (place id) = outline.isHidden first id := by
  obtain ⟨node, hnode⟩ := exists_get? hid
  obtain ⟨moved, hmoved, hcategory, _, _, hparent⟩ := e.exists_moved h₁ h₂ hnode
  rw [Outline.isHidden_of_get? hmoved, Outline.isHidden_of_get? hnode,
    hides_eq hcategory hparent]

theorem level_eq (e : first.Renumbering second place) (h₁ : first.Linked) (h₂ : second.Linked)
    (outline : Outline) {id : Nat} (hid : id < first.size) :
    outline.level second (place id) = outline.level first id := by
  rw [Outline.level, Outline.level, e.ancestors_eq h₁ h₂ hid, List.countP_map]
  refine List.countP_congr fun above habove => ?_
  have habove' := ((mem_ancestors_iff h₁).mp habove).lt h₁
  rw [Function.comp_apply, e.isHidden_eq h₁ h₂ outline (Nat.lt_trans habove' hid)]

theorem rows_eq (e : first.Renumbering second place) (h₁ : first.Linked) (h₂ : second.Linked)
    (outline : Outline) : outline.rows second = (outline.rows first).map place := by
  rw [Outline.rows, e.preorder_eq h₁ h₂, List.filter_map, Outline.rows]
  refine congrArg (List.map place) (List.filter_congr fun id hmem => ?_)
  have hid : id < first.size := (mem_preorder_root_iff h₁).mp hmem
  rw [Function.comp_apply, Outline.isShown, e.isHidden_eq h₁ h₂ outline hid,
    e.ancestors_eq h₁ h₂ hid, List.length_map, Outline.isShown]

theorem entry_eq {node moved : Node} (hcategory : moved.category = node.category)
    (hfields : moved.fields = node.fields) (hspan : moved.span = node.span) (outline : Outline)
    (level : Nat) : outline.entry level moved = outline.entry level node := by
  simp only [Outline.entry, hcategory, hfields, hspan]

/-- The same entries are shown, in the same order. -/
theorem entries_eq (e : first.Renumbering second place) (h₁ : first.Linked) (h₂ : second.Linked)
    (outline : Outline) : outline.entries second = outline.entries first := by
  rw [Outline.entries, Outline.shown_eq h₂, e.rows_eq h₁ h₂, List.filterMap_map,
    List.map_filterMap, Outline.entries, Outline.shown_eq h₁, List.map_filterMap]
  refine List.filterMap_congr fun id hrow => ?_
  have hid : id < first.size :=
    (mem_preorder_root_iff h₁).mp (List.mem_of_mem_filter hrow)
  obtain ⟨node, hnode⟩ := exists_get? hid
  obtain ⟨moved, hmoved, hcategory, hfields, hspan, _⟩ := e.exists_moved h₁ h₂ hnode
  simp only [Function.comp_apply, Outline.row?, hnode, hmoved, e.level_eq h₁ h₂ outline hid,
    Option.map_some, entry_eq hcategory hfields hspan]

/-- **Numbers do not show.**  Renumbering the nodes of a tree moves the sources of
the drawn nodes along and changes nothing else: the edges, the texts in DOT and
JSON, and the outline stay the same, whatever the settings. -/
theorem drawings_agree (e : first.Renumbering second place) (h₁ : first.Reachable)
    (h₂ : second.Reachable) (sheet : StyleSheet) (canvas : Canvas) (outline : Outline) :
    (∃ forest moved, Forest.build sheet first = .ok forest ∧
      Forest.build sheet second = .ok moved ∧
      moved.nodes = forest.nodes.map (fun node => { node with source := place node.source }) ∧
      moved.edges = forest.edges ∧
      moved.dot canvas = forest.dot canvas ∧
      moved.json.pretty = forest.json.pretty) ∧
    outline.render second = outline.render first := by
  constructor
  · refine ⟨_, _, Forest.build_eq_spliced h₁.linked sheet, Forest.build_eq_spliced h₂.linked sheet,
      ?_⟩
    rw [Forest.spliced, e.splice_eq h₁.linked h₂.linked sheet, Forest.dot_relabel,
      Forest.json_relabel, Forest.spliced]
    exact ⟨rfl, rfl, rfl, rfl⟩
  · rw [Outline.render_eq, Outline.render_eq, e.entries_eq h₁.linked h₂.linked]

/-- Two methods with a name and lines, numbered level by level. -/
def levelByLevel : Tree :=
  Forest.twoMethods.run [.setField 1 .name (.text "first"), .setSpan 4 ⟨2, 3⟩]

/-- The same tree, numbered in document order. -/
def inDocumentOrder : Tree :=
  (Tree.singleton .compilationUnit).run
    [.push .methodDeclaration 0, .setField 1 .name (.text "first"), .push .block 1,
     .push .returnStatement 2, .setSpan 3 ⟨2, 3⟩, .push .methodDeclaration 0]

/-- The place in document order of a node of `levelByLevel`. -/
def documentPlace (id : Nat) : Nat :=
  [0, 1, 4, 2, 3].getD id id

theorem renumbering_levelByLevel : levelByLevel.Renumbering inDocumentOrder documentPlace where
  bijOn := by
    have hfirst : levelByLevel.size = 5 := by decide +kernel
    have hsecond : inDocumentOrder.size = 5 := by decide +kernel
    rw [hfirst, hsecond]
    refine ⟨?_, ?_, ?_⟩
    · have hmaps : ∀ id < 5, documentPlace id < 5 := by decide
      exact hmaps
    · have hinj : ∀ a < 5, ∀ b < 5, documentPlace a = documentPlace b → a = b := by decide
      exact fun a ha b hb => hinj a ha b hb
    · have hsurj : ∀ place < 5, ∃ id < 5, documentPlace id = place := by decide
      exact hsurj
  root_eq := rfl
  get? := by
    have hmoved : ∀ id < levelByLevel.size,
        inDocumentOrder.get? (documentPlace id) = (levelByLevel.get? id).map fun node =>
          { node with
            parent := node.parent.map documentPlace
            children := node.children.map documentPlace } := by
      decide +kernel
    intro id node hnode
    have hid := hmoved id (lt_size_of_get? hnode)
    rw [hnode] at hid
    exact ⟨_, hid, rfl, rfl, rfl, rfl⟩

theorem drawings_agree_levelByLevel :
    levelByLevel.Renumbering inDocumentOrder documentPlace ∧ levelByLevel.Reachable ∧
    inDocumentOrder.Reachable ∧
    (∃ forest moved, Forest.build Forest.methodsAndReturns levelByLevel = .ok forest ∧
      Forest.build Forest.methodsAndReturns inDocumentOrder = .ok moved ∧
      forest.nodes.toList.map Forest.Node.source = [1, 4, 2] ∧
      moved.nodes.toList.map Forest.Node.source = [1, 3, 4] ∧
      moved.edges = forest.edges ∧
      moved.dot ⟨⟨800, 600⟩, 72⟩ = forest.dot ⟨⟨800, 600⟩, 72⟩ ∧
      moved.json.pretty = forest.json.pretty) ∧
    Outline.render {} inDocumentOrder = Outline.render {} levelByLevel := by
  have hfirst : levelByLevel.Reachable := Forest.twoMethods_reachable.run _
  have hsecond : inDocumentOrder.Reachable := (Reachable.singleton _).run _
  obtain ⟨⟨forest, moved, hbuild, hbuild', hnodes, hedges, hdot, hjson⟩, houtline⟩ :=
    drawings_agree renumbering_levelByLevel hfirst hsecond Forest.methodsAndReturns
      ⟨⟨800, 600⟩, 72⟩ {}
  have hvalue : (Forest.build Forest.methodsAndReturns levelByLevel).toOption.map
      (fun forest => forest.nodes.toList.map Forest.Node.source) = some [1, 4, 2] := by
    decide +kernel
  rw [hbuild] at hvalue
  have hsources : forest.nodes.toList.map Forest.Node.source = [1, 4, 2] := Option.some.inj hvalue
  have hmoved := Forest.map_source_of_nodes_eq hnodes
  rw [hsources] at hmoved
  exact ⟨renumbering_levelByLevel, hfirst, hsecond,
    ⟨forest, moved, hbuild, hbuild', hsources, hmoved, hedges, hdot, hjson⟩, houtline⟩

end Tree.Renumbering

end SyntaxForest
