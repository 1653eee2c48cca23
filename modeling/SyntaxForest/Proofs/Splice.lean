import SyntaxForest.Forest.Build
import SyntaxForest.Proofs.DocumentOrder
import SyntaxForest.Proofs.ForestIndex

/-! The forest of a tree, said without drawing it: the included nodes in document
order, and an edge to each of them from the nearest included node above it.
Drawing looks for the nearest node that is drawn already, one node after the
other, and never meets a fault: in a top-down order all that is above a node has
had its turn, so drawn and included are the same there. -/

namespace SyntaxForest
variable {sheet : StyleSheet} {tree : Tree}

/-- The nearest included node above a node. -/
def StyleSheet.nearest? (sheet : StyleSheet) (tree : Tree) (id : Nat) : Option Nat :=
  (tree.ancestors id).find? (sheet.includes tree)

/-- Nearest means that every included node above the node is at or above it. -/
theorem StyleSheet.nearest?_eq_some_iff (h : tree.Linked) {above id : Nat} :
    sheet.nearest? tree id = some above ↔
      sheet.includes tree above = true ∧ tree.Above above id ∧
        ∀ other, sheet.includes tree other = true → tree.Above other id →
          tree.AtOrAbove other above := by
  have hpair := Tree.ancestors_pairwise h id
  rw [nearest?, List.find?_eq_some_iff_append]
  constructor
  · rintro ⟨hin, near, far, hsplit, hnear⟩
    rw [hsplit] at hpair
    have hmem : above ∈ tree.ancestors id := by simp [hsplit]
    refine ⟨hin, (Tree.mem_ancestors_iff h).mp hmem, ?_⟩
    intro other hother habove
    have hother' := (Tree.mem_ancestors_iff h).mpr habove
    rw [hsplit, List.mem_append, List.mem_cons] at hother'
    rcases hother' with hnear' | rfl | hfar
    · exact absurd hother (by simpa using hnear other hnear')
    · exact Relation.ReflTransGen.refl
    · have hbelow := (List.pairwise_cons.mp (List.pairwise_append.mp hpair).2.1).1 other hfar
      exact hbelow.to_reflTransGen
  · rintro ⟨hin, habove, hmost⟩
    obtain ⟨near, far, hsplit⟩ := List.append_of_mem ((Tree.mem_ancestors_iff h).mpr habove)
    refine ⟨hin, near, far, hsplit, ?_⟩
    intro other hother
    rw [hsplit] at hpair
    have hbelow := (List.pairwise_append.mp hpair).2.2 other hother above List.mem_cons_self
    have hid : tree.Above other id :=
      (Tree.mem_ancestors_iff h).mp (by rw [hsplit]; exact List.mem_append_left _ hother)
    -- an included node nearer than `above` would be at or above it, and below it
    rw [Bool.not_eq_true']
    refine Bool.eq_false_iff.mpr fun hinc => ?_
    have hle := (hmost other hinc hid).le h
    have hlt := hbelow.lt h
    omega

namespace Forest

/-- The included nodes of an order. -/
def sources (sheet : StyleSheet) (tree : Tree) (order : List Nat) : List Nat :=
  order.filter (sheet.includes tree)

/-- The drawn form of tree node `id`, as the drawn node of number `place`. -/
def Node.placed? (sheet : StyleSheet) (tree : Tree) (id place : Nat) : Option Node :=
  (tree.get? id).map fun node =>
    { id := place
      source := id
      category := node.category
      label := Label.text sheet.detailed node
      shape := (sheet.decisionAt tree node).shape
      color := (sheet.decisionAt tree node).color
      filled := (sheet.decisionAt tree node).filled
      size := sheet.nodeSize }

/-- The edge to a tree node from the nearest included node above it, between
their places in a list. -/
def Edge.placed? (sheet : StyleSheet) (tree : Tree) (places : List Nat) (id : Nat) : Option Edge :=
  (sheet.nearest? tree id).map fun above => ⟨places.idxOf above, places.idxOf id⟩

/-- The drawing that an order of tree nodes stands for. -/
def splice (sheet : StyleSheet) (tree : Tree) (order : List Nat) : Drawing where
  nodes := ((sources sheet tree order).zipIdx.filterMap fun entry =>
    Node.placed? sheet tree entry.1 entry.2).toArray
  edges := ((sources sheet tree order).filterMap
    (Edge.placed? sheet tree (sources sheet tree order))).toArray

/-- An order of tree nodes in which each comes once and after all that is above
it. -/
structure TopDown (tree : Tree) (order : List Nat) : Prop where
  pairwise : order.Pairwise fun earlier later => ¬ tree.AtOrAbove later earlier
  lt_size : ∀ id ∈ order, id < tree.size
  above_mem : ∀ {above id}, id ∈ order → tree.Above above id → above ∈ order

theorem TopDown.nodup {order : List Nat} (h : TopDown tree order) : order.Nodup := by
  refine h.pairwise.imp fun {earlier later} hnot he => hnot ?_
  rw [he]
  exact Relation.ReflTransGen.refl

/-- The beginning of a top-down order is top-down. -/
theorem TopDown.of_append {front back : List Nat} (h : TopDown tree (front ++ back)) :
    TopDown tree front where
  pairwise := (List.pairwise_append.mp h.pairwise).1
  lt_size := fun id hid => h.lt_size id (List.mem_append_left _ hid)
  above_mem := by
    intro above id hid habove
    rcases List.mem_append.mp (h.above_mem (List.mem_append_left _ hid) habove) with hmem | hmem
    · exact hmem
    · have hnot := (List.pairwise_append.mp h.pairwise).2.2 id hid above hmem
      exact absurd habove.to_reflTransGen hnot

theorem topDown_preorder (h : tree.Linked) : TopDown tree (tree.preorder Tree.root) where
  pairwise := Tree.preorder_pairwise h Tree.root
  lt_size := fun _ => (Tree.mem_preorder_root_iff h).mp
  above_mem := fun _ habove =>
    (Tree.mem_preorder_root_iff h).mpr (Nat.lt_trans (habove.lt h) habove.lt_size)

theorem mem_sources {order : List Nat} {id : Nat} :
    id ∈ sources sheet tree order ↔ id ∈ order ∧ sheet.includes tree id = true :=
  List.mem_filter

theorem sources_nodup {order : List Nat} (h : TopDown tree order) :
    (sources sheet tree order).Nodup :=
  h.nodup.filter _

/-- The nearest included node above a node of the order is in the order too. -/
theorem mem_sources_of_nearest? (h : tree.Linked) {order : List Nat} (horder : TopDown tree order)
    {above id : Nat} (hid : id ∈ order) (hnear : sheet.nearest? tree id = some above) :
    above ∈ sources sheet tree order := by
  obtain ⟨hin, habove, _⟩ := (StyleSheet.nearest?_eq_some_iff h).mp hnear
  exact mem_sources.mpr ⟨horder.above_mem hid habove, hin⟩

/-! ## Lookups in a splice -/

/-- Nodes that are all in the tree are drawn one for one. -/
theorem getElem?_filterMap_placed? {ids : List Nat} (hids : ∀ id ∈ ids, id < tree.size)
    (first place : Nat) :
    ((ids.zipIdx first).filterMap fun entry => Node.placed? sheet tree entry.1 entry.2)[place]? =
      ids[place]?.bind fun id => Node.placed? sheet tree id (first + place) := by
  induction ids generalizing first place with
  | nil => rfl
  | cons id ids ih =>
    obtain ⟨node, hnode⟩ := Tree.exists_get? (hids id List.mem_cons_self)
    have hrest := ih (fun each heach => hids each (List.mem_cons_of_mem _ heach)) (first + 1)
    rw [List.zipIdx_cons, List.filterMap_cons]
    simp only [Node.placed?, hnode, Option.map_some] at hrest ⊢
    cases place with
    | zero => simp [hnode]
    | succ place => simp [hrest, Nat.add_right_comm, Nat.add_assoc]

theorem get?_splice {order : List Nat} (horder : ∀ id ∈ order, id < tree.size) (place : Nat) :
    (splice sheet tree order).get? place =
      (sources sheet tree order)[place]?.bind fun id => Node.placed? sheet tree id place := by
  rw [Drawing.get?, splice, List.getElem?_toArray,
    getElem?_filterMap_placed? (fun id hid => horder id (mem_sources.mp hid).1), Nat.zero_add]

/-- The drawn nodes stand for the sources, in order. -/
theorem map_source_splice {order : List Nat} (horder : ∀ id ∈ order, id < tree.size) :
    (splice sheet tree order).nodes.toList.map Node.source = sources sheet tree order := by
  refine List.ext_getElem? fun place => ?_
  rw [List.getElem?_map, Array.getElem?_toList, ← Drawing.get?, get?_splice horder]
  cases hid : (sources sheet tree order)[place]? with
  | none => rfl
  | some id =>
    obtain ⟨node, hnode⟩ :=
      Tree.exists_get? (horder id (mem_sources.mp (List.mem_of_getElem? hid)).1)
    simp [Node.placed?, hnode]

theorem size_splice {order : List Nat} (horder : ∀ id ∈ order, id < tree.size) :
    (splice sheet tree order).size = (sources sheet tree order).length := by
  rw [← map_source_splice horder, List.length_map, Array.length_toList, Drawing.size]

/-- The drawn node of a source has the place of the source as its number. -/
theorem drawn?_splice {order : List Nat} (horder : ∀ id ∈ order, id < tree.size) (id : Nat) :
    (splice sheet tree order).drawn? id =
      if id ∈ sources sheet tree order then some ((sources sheet tree order).idxOf id)
      else none := by
  have hfind : (splice sheet tree order).drawn? id =
      (sources sheet tree order).findIdx? fun source => source == id := by
    rw [← map_source_splice horder, List.findIdx?_map, Drawing.drawn?, splice,
      List.findIdx?_toArray]
    rfl
  rw [hfind]
  split
  · rename_i hmem
    exact List.findIdx?_eq_some_of_exists ⟨id, hmem, beq_self_eq_true id⟩
  · rename_i hmem
    refine List.findIdx?_eq_none_iff.mpr fun source hsource => ?_
    rw [beq_eq_false_iff_ne]
    rintro rfl
    exact hmem hsource

/-! ## Drawing one node after the other -/

theorem findSome?_eq_map_find? {α β : Type} {f : α → Option β} {p : α → Bool} {g : α → β}
    {l : List α} (h : ∀ a ∈ l, f a = if p a then some (g a) else none) :
    l.findSome? f = (l.find? p).map g := by
  induction l with
  | nil => rfl
  | cons a l ih =>
    rw [List.findSome?_cons, List.find?_cons, h a List.mem_cons_self]
    by_cases hp : p a = true
    · simp [hp]
    · simp only [hp]
      exact ih fun b hb => h b (List.mem_cons_of_mem _ hb)

/-- Where all that is above a node had its turn, the nearest drawn node is the
nearest included one. -/
theorem nearest?_splice (h : tree.Linked) {order : List Nat} (horder : TopDown tree order)
    {id : Nat} (hid : id ∈ order) {drawing : Drawing}
    (hkept : drawing.WellKept) (hnodes : drawing.nodes = (splice sheet tree order).nodes) :
    drawing.indexed.nearest? tree id =
      (sheet.nearest? tree id).map (sources sheet tree order).idxOf := by
  refine findSome?_eq_map_find? fun above habove => ?_
  have hmem : above ∈ order := horder.above_mem hid ((Tree.mem_ancestors_iff h).mp habove)
  have hdrawn : drawing.drawn? above = (splice sheet tree order).drawn? above := by
    rw [Drawing.drawn?, hnodes, Drawing.drawn?]
  rw [Drawing.drawn?_indexed hkept, hdrawn, drawn?_splice horder.lt_size]
  simp only [mem_sources, hmem, true_and]

theorem sources_concat (order : List Nat) (id : Nat) :
    sources sheet tree (order ++ [id]) =
      sources sheet tree order ++ if sheet.includes tree id then [id] else [] := by
  rw [sources, sources, List.filter_append, List.filter_cons, List.filter_nil]

/-- One more node leaves the edges between the nodes so far as they are. -/
theorem edges_splice_concat (h : tree.Linked) {order : List Nat} {id : Nat}
    (horder : TopDown tree order) (hin : sheet.includes tree id = true) :
    (splice sheet tree (order ++ [id])).edges =
      (splice sheet tree order).edges ++
        (Edge.placed? sheet tree (sources sheet tree (order ++ [id])) id).toArray := by
  have hsources : sources sheet tree (order ++ [id]) = sources sheet tree order ++ [id] := by
    rw [sources_concat, if_pos hin]
  have hold : (sources sheet tree order).filterMap
        (Edge.placed? sheet tree (sources sheet tree order ++ [id])) =
      (sources sheet tree order).filterMap
        (Edge.placed? sheet tree (sources sheet tree order)) := by
    refine List.filterMap_congr fun each heach => ?_
    unfold Edge.placed?
    cases hnear : sheet.nearest? tree each with
    | none => rfl
    | some above =>
      have habove := mem_sources_of_nearest? h horder (mem_sources.mp heach).1 hnear
      simp only [Option.map_some, List.idxOf_append_of_mem habove, List.idxOf_append_of_mem heach]
  simp only [splice, hsources, List.filterMap_append, hold, ← List.append_toArray]
  cases hplaced : Edge.placed? sheet tree (sources sheet tree order ++ [id]) id <;>
    simp [hplaced]

theorem nodes_splice_concat {order : List Nat} {id : Nat} {node : Tree.Node}
    (hnode : tree.get? id = some node) (horder : ∀ each ∈ order, each < tree.size)
    (hin : sheet.includes tree id = true) :
    (splice sheet tree (order ++ [id])).nodes =
      (splice sheet tree order).nodes.push
        { Node.ofTree sheet tree id node with id := (splice sheet tree order).size } := by
  rw [size_splice horder]
  simp [splice, sources_concat, hin, List.zipIdx_append, Node.placed?, hnode, Node.ofTree]

/-- A splice with one node more, whose edge is not drawn yet. -/
def unhung (sheet : StyleSheet) (tree : Tree) (order : List Nat) (id : Nat) : Drawing :=
  ⟨(splice sheet tree (order ++ [id])).nodes, (splice sheet tree order).edges⟩

theorem draw_of_addNode {forest grown : Forest} {id output : Nat} {node : Tree.Node}
    (hnode : tree.get? id = some node) (hin : sheet.includes tree id = true)
    (hadd : forest.addNode (Node.ofTree sheet tree id node) = .ok (grown, output)) :
    draw sheet tree forest id =
      match grown.nearest? tree id with
      | some above => grown.addEdge above output
      | none => .ok grown := by
  have hdecision : (sheet.decisionAt tree node).included = true := by
    simpa [StyleSheet.includes, hnode] using hin
  simp only [draw, hnode, hdecision, if_true, hadd]
  rfl

section

variable {order : List Nat} {id : Nat} (horder : TopDown tree (order ++ [id]))

include horder

theorem notMem_sources_of_topDown : id ∉ sources sheet tree order := by
  intro hmem
  have hdisjoint := (List.nodup_append.mp horder.nodup).2.2
  exact hdisjoint id (mem_sources.mp hmem).1 id (List.mem_singleton_self id) rfl

variable (hin : sheet.includes tree id = true)

include hin

/-- The place of the node that is drawn next is the number of those drawn before. -/
theorem idxOf_sources_concat :
    (sources sheet tree (order ++ [id])).idxOf id = (splice sheet tree order).size := by
  rw [sources_concat, if_pos hin, List.idxOf_append_of_notMem (notMem_sources_of_topDown horder),
    List.idxOf_cons_self, size_splice horder.of_append.lt_size, Nat.add_zero]

theorem size_unhung :
    (unhung sheet tree order id).size = (splice sheet tree order).size + 1 := by
  refine (size_splice horder.lt_size).trans ?_
  rw [sources_concat, if_pos hin, List.length_append, size_splice horder.of_append.lt_size,
    List.length_singleton]

/-- The next node is accepted, since no node so far has its source. -/
theorem addNode_splice {node : Tree.Node} (hnode : tree.get? id = some node) :
    (splice sheet tree order).addNode (Node.ofTree sheet tree id node) =
      .ok (unhung sheet tree order id, (splice sheet tree order).size) := by
  refine Drawing.addNode_eq_ok_iff.mpr ⟨?_, rfl, ?_⟩
  · rw [map_source_splice horder.of_append.lt_size]
    exact notMem_sources_of_topDown horder
  · rw [unhung, nodes_splice_concat hnode horder.of_append.lt_size hin]

variable (h : tree.Linked)

include h

/-- What is drawn next under no other node has no edge to wait for. -/
theorem unhung_eq_splice (hnear : sheet.nearest? tree id = none) :
    unhung sheet tree order id = splice sheet tree (order ++ [id]) := by
  have hedges := edges_splice_concat h horder.of_append hin
  rw [Edge.placed?, hnear, Option.map_none, Option.toArray_none, Array.append_empty] at hedges
  rw [unhung, ← hedges]

/-- The edge of the next node is accepted, since none leads yet to a number that is new. -/
theorem addEdge_unhung (hkept : (splice sheet tree order).WellKept) {above : Nat}
    (hnear : sheet.nearest? tree id = some above) :
    (unhung sheet tree order id).addEdge ((sources sheet tree (order ++ [id])).idxOf above)
        (splice sheet tree order).size =
      .ok (splice sheet tree (order ++ [id])) := by
  have hsources : sources sheet tree (order ++ [id]) = sources sheet tree order ++ [id] := by
    rw [sources_concat, if_pos hin]
  obtain ⟨_, habove, _⟩ := (StyleSheet.nearest?_eq_some_iff h).mp hnear
  have hmem : above ∈ sources sheet tree order := by
    have hmem := mem_sources_of_nearest? h horder (by simp) hnear
    rw [hsources, List.mem_append, List.mem_singleton] at hmem
    exact hmem.resolve_right (Nat.ne_of_lt (habove.lt h))
  have hlt : (sources sheet tree (order ++ [id])).idxOf above < (splice sheet tree order).size := by
    rw [hsources, List.idxOf_append_of_mem hmem, size_splice horder.of_append.lt_size]
    exact List.idxOf_lt_length_iff.mpr hmem
  refine Drawing.addEdge_eq_ok_iff.mpr ⟨⟨?_, ?_, Nat.ne_of_lt hlt, ?_⟩, ?_⟩
  · rw [size_unhung horder hin]
    exact Nat.lt_succ_of_lt hlt
  · rw [size_unhung horder hin]
    exact Nat.lt_succ_self _
  · exact hkept.parent?_of_size_le (Nat.le_refl _)
  · have hedges := edges_splice_concat h horder.of_append hin
    rw [Edge.placed?, hnear, Option.map_some, Option.toArray_some, Array.append_singleton,
      idxOf_sources_concat horder hin] at hedges
    rw [unhung, ← hedges]

/-- Drawing an included node keeps to the splice: no check refuses it, its number
is the next place, and its edge is the one between the places. -/
theorem draw_splice_included (hkept : (splice sheet tree order).WellKept) :
    draw sheet tree (splice sheet tree order).indexed id =
        .ok (splice sheet tree (order ++ [id])).indexed ∧
      (splice sheet tree (order ++ [id])).WellKept := by
  obtain ⟨node, hnode⟩ := Tree.exists_get? (horder.lt_size id (by simp))
  have hadd := addNode_splice horder hin hnode
  have hgrown := hkept.addNode hadd
  have hindexed := Drawing.addNode_indexed hkept (Node.ofTree sheet tree id node)
  simp only [hadd, Except.map] at hindexed
  rw [draw_of_addNode hnode hin hindexed, nearest?_splice h horder (by simp) hgrown rfl]
  cases hnear : sheet.nearest? tree id with
  | none =>
    rw [unhung_eq_splice horder hin h hnear] at hgrown ⊢
    exact ⟨rfl, hgrown⟩
  | some above =>
    have hedge := addEdge_unhung horder hin h hkept hnear
    refine ⟨?_, hgrown.addEdge hedge⟩
    rw [Option.map_some]
    dsimp only
    rw [Drawing.addEdge_indexed hgrown, hedge]
    rfl

end

/-- Drawing the next node of a top-down order gives the next splice. -/
theorem draw_splice (h : tree.Linked) {order : List Nat} {id : Nat}
    (horder : TopDown tree (order ++ [id])) (hkept : (splice sheet tree order).WellKept) :
    draw sheet tree (splice sheet tree order).indexed id =
        .ok (splice sheet tree (order ++ [id])).indexed ∧
      (splice sheet tree (order ++ [id])).WellKept := by
  by_cases hin : sheet.includes tree id = true
  · exact draw_splice_included horder hin h hkept
  · obtain ⟨node, hnode⟩ := Tree.exists_get? (horder.lt_size id (by simp))
    have hdecision : (sheet.decisionAt tree node).included = false := by
      simpa [StyleSheet.includes, hnode] using hin
    have hsources : sources sheet tree (order ++ [id]) = sources sheet tree order := by
      rw [sources_concat, if_neg hin, List.append_nil]
    have hsame : splice sheet tree (order ++ [id]) = splice sheet tree order := by
      rw [splice, hsources, splice]
    rw [hsame]
    exact ⟨by simp [draw, hnode, hdecision], hkept⟩

/-- Drawing a whole top-down order gives its splice. -/
theorem foldlM_draw (h : tree.Linked) (done : List Nat) {rest : List Nat}
    (horder : TopDown tree (done ++ rest)) (hkept : (splice sheet tree done).WellKept) :
    rest.foldlM (draw sheet tree) (splice sheet tree done).indexed =
        .ok (splice sheet tree (done ++ rest)).indexed ∧
      (splice sheet tree (done ++ rest)).WellKept := by
  induction rest generalizing done with
  | nil =>
    rw [List.append_nil]
    exact ⟨rfl, hkept⟩
  | cons id rest ih =>
    have hsplit : done ++ id :: rest = (done ++ [id]) ++ rest := by simp
    rw [hsplit] at horder ⊢
    obtain ⟨hdraw, hnext⟩ := draw_splice h horder.of_append hkept
    rw [List.foldlM_cons, hdraw]
    exact ih (done ++ [id]) horder hnext

/-- The splice of a whole tree. -/
def spliced (sheet : StyleSheet) (tree : Tree) : Forest :=
  (splice sheet tree (tree.preorder Tree.root)).indexed

theorem foldlM_draw_preorder (h : tree.Linked) (sheet : StyleSheet) :
    (tree.preorder Tree.root).foldlM (draw sheet tree) {} = .ok (spliced sheet tree) ∧
      (splice sheet tree (tree.preorder Tree.root)).WellKept :=
  foldlM_draw h [] (topDown_preorder h) Drawing.wellKept_empty

theorem build_eq_spliced (h : tree.Linked) (sheet : StyleSheet) :
    build sheet tree = .ok (spliced sheet tree) := by
  rw [build, Tree.map_fst_walk_root h]
  exact (foldlM_draw_preorder h sheet).1

theorem wellKept_spliced (h : tree.Linked) (sheet : StyleSheet) :
    (splice sheet tree (tree.preorder Tree.root)).WellKept :=
  (foldlM_draw_preorder h sheet).2

theorem drawn?_spliced (h : tree.Linked) (sheet : StyleSheet) (id : Nat) :
    (spliced sheet tree).drawn? id =
      (splice sheet tree (tree.preorder Tree.root)).drawn? id :=
  Drawing.drawn?_indexed (wellKept_spliced h sheet) id

/-! ## What is built -/

/-- The sources of a whole tree. -/
def drawnSources (sheet : StyleSheet) (tree : Tree) : List Nat :=
  sources sheet tree (tree.preorder Tree.root)

/-- A forest is the splice of a tree: its nodes are the included nodes in document
order, numbered from 0, and its edges, told by the node that they lead to, come
from the nearest included node above. -/
structure IsSplice (sheet : StyleSheet) (tree : Tree) (forest : Forest) : Prop where
  size_eq : forest.size = (drawnSources sheet tree).length
  get?_eq : ∀ {place id}, (drawnSources sheet tree)[place]? = some id →
    ∃ node, tree.get? id = some node ∧
      forest.get? place = some
        { id := place
          source := id
          category := node.category
          label := Label.text sheet.detailed node
          shape := (sheet.decisionAt tree node).shape
          color := (sheet.decisionAt tree node).color
          filled := (sheet.decisionAt tree node).filled
          size := sheet.nodeSize }
  edges_eq : forest.edges.toList = (drawnSources sheet tree).filterMap fun id =>
    (sheet.nearest? tree id).map fun above =>
      ⟨(drawnSources sheet tree).idxOf above, (drawnSources sheet tree).idxOf id⟩
  stops_pairwise : (forest.edges.toList.map Edge.stop).Pairwise (· < ·)

theorem idxOf_pairwise {ids : List Nat} (h : ids.Nodup) :
    ids.Pairwise fun a b => ids.idxOf a < ids.idxOf b := by
  refine List.pairwise_iff_getElem.mpr fun i j hi hj hlt => ?_
  rwa [h.idxOf_getElem i hi, h.idxOf_getElem j hj]

theorem isSplice_spliced (h : tree.Linked) (sheet : StyleSheet) :
    IsSplice sheet tree (spliced sheet tree) where
  size_eq := size_splice (topDown_preorder h).lt_size
  get?_eq := by
    intro place id hplace
    have hid := (mem_sources.mp (List.mem_of_getElem? hplace)).1
    obtain ⟨node, hnode⟩ := Tree.exists_get? ((topDown_preorder h).lt_size id hid)
    refine ⟨node, hnode, ?_⟩
    change (splice sheet tree (tree.preorder Tree.root)).get? place = _
    rw [get?_splice (topDown_preorder h).lt_size, ← drawnSources, hplace, Option.bind_some,
      Node.placed?, hnode, Option.map_some]
  edges_eq := rfl
  stops_pairwise := by
    have hnodup : (drawnSources sheet tree).Nodup := sources_nodup (topDown_preorder h)
    have hpair := idxOf_pairwise hnodup
    refine List.pairwise_map.mpr (List.pairwise_filterMap.mpr (hpair.imp fun {a b} hlt => ?_))
    intro e he f hf
    obtain ⟨_, _, rfl⟩ := Option.map_eq_some_iff.mp he
    obtain ⟨_, _, rfl⟩ := Option.map_eq_some_iff.mp hf
    exact hlt

/-- **The forest of a tree is its splice.**  Whatever steps gave the tree, every
lookup on the way finds its node, no addition is refused, and what is built is
the splice of the tree. -/
theorem build_isSplice (sheet : StyleSheet) (h : tree.Reachable) :
    (∀ id ∈ tree.preorder Tree.root, ∀ each ∈ id :: tree.ancestors id,
      ∃ node, tree.node each = .ok node) ∧
    ∃ forest, build sheet tree = .ok forest ∧ IsSplice sheet tree forest := by
  refine ⟨?_, _, build_eq_spliced h.linked sheet, isSplice_spliced h.linked sheet⟩
  intro id hid each heach
  have hsize : each < tree.size := by
    have hid' := (Tree.mem_preorder_root_iff h.linked).mp hid
    rcases List.mem_cons.mp heach with rfl | habove
    · exact hid'
    · exact Nat.lt_trans (((Tree.mem_ancestors_iff h.linked).mp habove).lt h.linked) hid'
  obtain ⟨node, hnode⟩ := Tree.exists_get? hsize
  exact ⟨node, by rw [Tree.node, hnode]⟩

/-- A unit with two methods, the second added before the body of the first, so
that the numbers are not in document order. -/
def twoMethods : Tree :=
  (Tree.singleton .compilationUnit).run
    [.push .methodDeclaration 0, .push .methodDeclaration 0, .push .block 1,
     .push .returnStatement 3]

theorem twoMethods_reachable : twoMethods.Reachable :=
  (Tree.Reachable.singleton _).run _

/-- Methods and returns are drawn, and blocks are not. -/
def methodsAndReturns : StyleSheet :=
  StyleSheet.plain.visiting [.methodDeclaration, .returnStatement]

theorem build_isSplice_twoMethods :
    twoMethods.Reachable ∧
    ∃ forest, build methodsAndReturns twoMethods = .ok forest ∧
      IsSplice methodsAndReturns twoMethods forest ∧
      forest.nodes.toList.map Node.source = [1, 4, 2] ∧ forest.edges = #[⟨0, 1⟩] := by
  refine ⟨twoMethods_reachable, ?_⟩
  obtain ⟨forest, hbuild, hsplice⟩ := (build_isSplice methodsAndReturns twoMethods_reachable).2
  have hvalue : (build methodsAndReturns twoMethods).toOption.map
      (fun forest => (forest.nodes.toList.map Node.source, forest.edges)) =
        some ([1, 4, 2], #[⟨0, 1⟩]) := by
    decide +kernel
  rw [hbuild] at hvalue
  obtain ⟨hsources, hedges⟩ := Prod.mk.inj (Option.some.inj hvalue)
  exact ⟨forest, hbuild, hsplice, hsources, hedges⟩

end Forest

end SyntaxForest
