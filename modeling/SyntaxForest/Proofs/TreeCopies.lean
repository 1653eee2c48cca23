import Mathlib.Data.List.Nodup
import SyntaxForest.Forest.Text
import SyntaxForest.Proofs.Splice

/-! Copies of trees.  One tree may stand in another under other numbers: the same
categories and fields, and the same children in the same order.  Document order
and the nodes above then agree up to the numbers, and so do the forests wherever
the same nodes are included. -/

namespace SyntaxForest

/-- `small` stands in `large`, its node `id` as the node `place id`. -/
structure Tree.Copy (small large : Tree) (place : Nat → Nat) : Prop where
  get? : ∀ {id node}, small.get? id = some node →
    ∃ copy, large.get? (place id) = some copy ∧ copy.category = node.category ∧
      copy.fields = node.fields ∧ copy.children = node.children.map place

namespace Tree.Copy
variable {small large : Tree} {place : Nat → Nat}

theorem children_eq (h : Copy small large place) {id : Nat} (hid : id < small.size) :
    large.children (place id) = (small.children id).map place := by
  obtain ⟨node, hnode⟩ := exists_get? hid
  obtain ⟨copy, hcopy, _, _, hchildren⟩ := h.get? hnode
  rw [children_of_get? hcopy, children_of_get? hnode, hchildren]

theorem isParent (h : Copy small large place) (hs : small.Linked) (hl : large.Linked)
    {parent id : Nat} (hp : small.IsParent parent id) :
    large.IsParent (place parent) (place id) := by
  have hmem := (mem_children_iff hs).mpr hp
  rw [← mem_children_iff hl, h.children_eq (lt_size_of_mem_children hmem)]
  exact List.mem_map_of_mem hmem

/-- Document order goes over the copy as over the tree. -/
theorem visits_eq (h : Copy small large place) (hs : small.Linked) (hl : large.Linked)
    {id : Nat} (hid : id < small.size) (depth : Nat) :
    large.visits (place id) depth =
      (small.visits id depth).map fun visit => (place visit.1, visit.2) := by
  induction id using hs.induction_below generalizing depth with
  | step id ih =>
    rw [Tree.visits_eq hl, Tree.visits_eq hs, h.children_eq hid, List.flatMap_map, List.map_cons,
      List.map_flatMap]
    refine congrArg ((place id, depth) :: ·) (List.flatMap_congr fun child hc => ?_)
    have hchild := lt_size_of_parent? ((mem_children_iff hs).mp hc)
    exact ih child hc hchild (depth + 1)

/-- A copy visits its nodes in the order of the original. -/
theorem preorder_eq (h : Copy small large place) (hs : small.Linked) (hl : large.Linked)
    {id : Nat} (hid : id < small.size) :
    large.preorder (place id) = (small.preorder id).map place := by
  rw [preorder, preorder, h.visits_eq hs hl hid, List.map_map, List.map_map]
  rfl

/-- Two nodes do not stand in one place. -/
theorem inj (h : Copy small large place) (hs : small.Linked) (hl : large.Linked) {a b : Nat}
    (ha : a < small.size) (hb : b < small.size) (hab : place a = place b) : a = b := by
  have hnodup := preorder_nodup hl (place root)
  rw [h.preorder_eq hs hl hs.root_lt_size] at hnodup
  exact List.inj_on_of_nodup_map hnodup ((mem_preorder_root_iff hs).mpr ha)
    ((mem_preorder_root_iff hs).mpr hb) hab

/-- Above a node of the copy come the copies of what is above the node, then what
is above the copy as a whole. -/
theorem ancestors_eq (h : Copy small large place) (hs : small.Linked) (hl : large.Linked)
    {id : Nat} (hid : id < small.size) :
    large.ancestors (place id) =
      (small.ancestors id).map place ++ large.ancestors (place root) := by
  induction id using Nat.strongRecOn with
  | ind id ih =>
    by_cases hroot : id = root
    · rw [hroot, ancestors_of_parent?_eq_none hs.parent?_root]
      rfl
    · obtain ⟨parent, hp⟩ := hs.exists_parent hid hroot
      have hlt := hs.parent_lt hp
      rw [ancestors_of_isParent hs hp, ancestors_of_isParent hl (h.isParent hs hl hp),
        ih parent hlt (Nat.lt_trans hlt hid)]
      rfl

end Tree.Copy

/-! ## What a drawing takes from a node -/

@[simp] theorem StyleSheet.shape_decisionAt (sheet : StyleSheet) (tree : Tree) (node : Tree.Node) :
    (sheet.decisionAt tree node).shape = (sheet.style node.category).shape := by
  unfold decisionAt
  split <;> rfl

@[simp] theorem StyleSheet.color_decisionAt (sheet : StyleSheet) (tree : Tree) (node : Tree.Node) :
    (sheet.decisionAt tree node).color = (sheet.style node.category).color := by
  unfold decisionAt
  split <;> rfl

@[simp] theorem StyleSheet.filled_decisionAt (sheet : StyleSheet) (tree : Tree)
    (node : Tree.Node) : (sheet.decisionAt tree node).filled = sheet.fillNodes := by
  unfold decisionAt
  split <;> rfl

theorem Label.text_congr {node copy : Tree.Node} (hcategory : copy.category = node.category)
    (hfields : copy.fields = node.fields) (isDetailed : Bool) :
    text isDetailed copy = text isDetailed node := by
  simp only [text, detailed, line, Tree.Node.field?, hcategory, hfields]

/-- The drawing with its nodes standing for other tree nodes. -/
def Drawing.relabel (place : Nat → Nat) (drawing : Drawing) : Drawing where
  nodes := drawing.nodes.map fun node => { node with source := place node.source }
  edges := drawing.edges

namespace Forest
variable {sheet : StyleSheet}

theorem map_source_of_nodes_eq {place : Nat → Nat} {forest moved : Forest}
    (h : moved.nodes = forest.nodes.map fun node => { node with source := place node.source }) :
    moved.nodes.toList.map Node.source = (forest.nodes.toList.map Node.source).map place := by
  rw [h, Array.toList_map, List.map_map, List.map_map]
  rfl

/-- The drawing as DOT does not tell which tree nodes were drawn. -/
theorem dot_relabel (place : Nat → Nat) (drawing : Drawing) (canvas : Canvas) :
    (drawing.relabel place).indexed.dot canvas = drawing.indexed.dot canvas := by
  have hnodes : (drawing.relabel place).indexed.nodes.toList.map Node.dot =
      drawing.indexed.nodes.toList.map Node.dot := by
    rw [Drawing.indexed, Drawing.relabel, Array.toList_map, List.map_map]
    rfl
  rw [dot, dot, dotStatements, dotStatements, hnodes]
  rfl

theorem json_relabel (place : Nat → Nat) (drawing : Drawing) :
    (drawing.relabel place).indexed.json = drawing.indexed.json := by
  have hnodes : (drawing.relabel place).indexed.nodes.toList.map Node.json =
      drawing.indexed.nodes.toList.map Node.json := by
    rw [Drawing.indexed, Drawing.relabel, Array.toList_map, List.map_map]
    rfl
  rw [json, json, hnodes]
  rfl

theorem idxOf_map_of_inj {f : Nat → Nat} {ids : List Nat} {a : Nat}
    (h : ∀ b ∈ ids, f b = f a → b = a) : (ids.map f).idxOf (f a) = ids.idxOf a := by
  induction ids with
  | nil => rfl
  | cons b ids ih =>
    have hrest := ih fun c hc => h c (List.mem_cons_of_mem _ hc)
    have hfirst : f b = f a ↔ b = a := ⟨h b List.mem_cons_self, congrArg f⟩
    simp only [List.map_cons, List.idxOf_cons, beq_iff_eq, hrest, cond_eq_ite, hfirst]

section
variable {small large : Tree} {place : Nat → Nat}

/-- A copy draws the nodes that stand for the drawn ones. -/
theorem sources_map_place
    (hin : ∀ id < small.size, sheet.includes large (place id) = sheet.includes small id)
    {order : List Nat} (horder : ∀ id ∈ order, id < small.size) :
    sources sheet large (order.map place) = (sources sheet small order).map place := by
  rw [sources, sources, List.filter_map]
  exact congrArg (List.map place) (List.filter_congr fun id hid => hin id (horder id hid))

/-- The drawn form of a copied node differs in its source alone. -/
theorem placed?_place (h : small.Copy large place) {id : Nat} (hid : id < small.size)
    (output : Nat) :
    Node.placed? sheet large (place id) output =
      (Node.placed? sheet small id output).map
        fun node => { node with source := place node.source } := by
  obtain ⟨node, hnode⟩ := Tree.exists_get? hid
  obtain ⟨copy, hcopy, hcategory, hfields, _⟩ := h.get? hnode
  simp [Node.placed?, hnode, hcopy, hcategory, Label.text_congr hcategory hfields]

/-- Where nothing above the copy is included, the nearest included nodes agree. -/
theorem nearest?_place (h : small.Copy large place) (hs : small.Linked) (hl : large.Linked)
    (hin : ∀ id < small.size, sheet.includes large (place id) = sheet.includes small id)
    (htop : ∀ above ∈ large.ancestors (place Tree.root), sheet.includes large above = false)
    {id : Nat} (hid : id < small.size) :
    sheet.nearest? large (place id) = (sheet.nearest? small id).map place := by
  have hnone : (large.ancestors (place Tree.root)).find? (sheet.includes large) = none :=
    List.find?_eq_none.mpr fun above habove => by simp [htop above habove]
  have hagree : ∀ above ∈ small.ancestors id,
      (sheet.includes large ∘ place) above = sheet.includes small above := by
    intro above habove
    exact hin above (Nat.lt_trans (((Tree.mem_ancestors_iff hs).mp habove).lt hs) hid)
  rw [StyleSheet.nearest?, StyleSheet.nearest?, h.ancestors_eq hs hl hid, List.find?_append, hnone,
    Option.or_none, List.find?_map, ← List.head?_filter, ← List.head?_filter,
    List.filter_congr hagree]

/-- **The splice of a copy** is the splice of the tree with the sources moved, where
the same nodes are included and nothing above the copy is. -/
theorem splice_map_place (h : small.Copy large place) (hs : small.Linked) (hl : large.Linked)
    (hin : ∀ id < small.size, sheet.includes large (place id) = sheet.includes small id)
    (htop : ∀ above ∈ large.ancestors (place Tree.root), sheet.includes large above = false)
    {order : List Nat} (horder : ∀ id ∈ order, id < small.size) :
    splice sheet large (order.map place) = (splice sheet small order).relabel place := by
  have hsize : ∀ id ∈ sources sheet small order, id < small.size :=
    fun id hid => horder id (mem_sources.mp hid).1
  have hplace : ∀ id < small.size, ((sources sheet small order).map place).idxOf (place id) =
      (sources sheet small order).idxOf id := by
    intro id hid
    exact idxOf_map_of_inj fun each heach => h.inj hs hl (hsize each heach) hid
  rw [splice, sources_map_place hin horder, Drawing.relabel, splice]
  congr 1
  · rw [List.zipIdx_map, List.filterMap_map, List.map_toArray, List.map_filterMap]
    refine congrArg List.toArray (List.filterMap_congr fun entry hentry => ?_)
    have hid := hsize entry.1 (List.fst_mem_of_mem_zipIdx hentry)
    exact placed?_place h hid entry.2
  · rw [List.filterMap_map]
    refine congrArg List.toArray (List.filterMap_congr fun id hid => ?_)
    rw [Function.comp_apply, Edge.placed?, nearest?_place h hs hl hin htop (hsize id hid),
      Option.map_map, Edge.placed?]
    refine Option.map_congr fun above habove => ?_
    have habove' := ((StyleSheet.nearest?_eq_some_iff hs).mp habove).2.1
    rw [Function.comp_apply, hplace above (Nat.lt_trans (habove'.lt hs) (hsize id hid)),
      hplace id (hsize id hid)]

end

end Forest

end SyntaxForest
