import SyntaxForest.Proofs.Splice

/-! Paths of a forest.  A path of edges leads from one drawn node down to another
exactly where the tree node of the first stands above that of the second, however
many nodes between them are left out.  Edges lead to greater numbers, every node
is below one root, and what a node leads to is a block of numbers that begins
with its own. -/

namespace SyntaxForest.Forest
variable {sheet : StyleSheet} {tree : Tree}

/-- An edge leads from `start` to `stop`. -/
def IsEdge (forest : Forest) (start stop : Nat) : Prop :=
  ⟨start, stop⟩ ∈ forest.edges

/-- No edge leads to the drawn node `id`. -/
def IsRoot (forest : Forest) (id : Nat) : Prop :=
  ∃ node ∈ forest.roots, node.id = id

theorem drawnSources_nodup (h : tree.Linked) (sheet : StyleSheet) :
    (drawnSources sheet tree).Nodup :=
  sources_nodup (topDown_preorder h)

theorem includes_of_drawnSources {place id : Nat}
    (h : (drawnSources sheet tree)[place]? = some id) : sheet.includes tree id = true :=
  (mem_sources.mp (List.mem_of_getElem? h)).2

/-- The places of the sources are told by the sources. -/
theorem place_unique (h : tree.Linked) {i j id : Nat}
    (hi : (drawnSources sheet tree)[i]? = some id) (hj : (drawnSources sheet tree)[j]? = some id) :
    i = j :=
  (List.getElem?_inj (List.getElem?_eq_some_iff.mp hi).1 (drawnSources_nodup h sheet)).mp
    (hi.trans hj.symm)

theorem exists_place (h : tree.Linked) {id : Nat} (hid : id < tree.size)
    (hin : sheet.includes tree id = true) :
    ∃ place : Nat, (drawnSources sheet tree)[place]? = some id :=
  List.mem_iff_getElem?.mp (mem_sources.mpr ⟨(Tree.mem_preorder_root_iff h).mpr hid, hin⟩)

/-- The number of a node drawn for a tree node is that node's place among the drawn ones. -/
theorem drawn?_spliced_iff (h : tree.Linked) {id place : Nat} :
    (spliced sheet tree).drawn? id = some place ↔
      (drawnSources sheet tree)[place]? = some id := by
  rw [drawn?_spliced h, drawn?_splice (topDown_preorder h).lt_size, ← drawnSources]
  constructor
  · intro hplace
    split at hplace
    · rename_i hmem
      obtain rfl := Option.some.inj hplace
      exact List.getElem?_idxOf hmem
    · cases hplace
  · intro hplace
    rw [if_pos (List.mem_of_getElem? hplace)]
    exact congrArg some (place_unique h (List.getElem?_idxOf (List.mem_of_getElem? hplace)) hplace)

/-- An edge leads from the nearest included node above. -/
theorem isEdge_spliced_iff (h : tree.Linked) {i j : Nat} :
    (spliced sheet tree).IsEdge i j ↔
      ∃ above id, (drawnSources sheet tree)[i]? = some above ∧
        (drawnSources sheet tree)[j]? = some id ∧ sheet.nearest? tree id = some above := by
  have hmem : (spliced sheet tree).IsEdge i j ↔
      ∃ id ∈ drawnSources sheet tree,
        Edge.placed? sheet tree (drawnSources sheet tree) id = some ⟨i, j⟩ :=
    List.mem_toArray.trans List.mem_filterMap
  rw [hmem]
  constructor
  · rintro ⟨id, hid, hplaced⟩
    obtain ⟨above, hnear, hedge⟩ := Option.map_eq_some_iff.mp hplaced
    obtain ⟨rfl, rfl⟩ := Edge.mk.inj hedge
    have habove : above ∈ drawnSources sheet tree :=
      mem_sources_of_nearest? h (topDown_preorder h) (mem_sources.mp hid).1 hnear
    exact ⟨above, id, List.getElem?_idxOf habove, List.getElem?_idxOf hid, hnear⟩
  · rintro ⟨above, id, hi, hj, hnear⟩
    have habove := List.mem_of_getElem? hi
    have hid := List.mem_of_getElem? hj
    refine ⟨id, hid, ?_⟩
    rw [Edge.placed?, hnear, Option.map_some, place_unique h hi (List.getElem?_idxOf habove),
      place_unique h hj (List.getElem?_idxOf hid)]

/-! ## Paths and the nodes above -/

/-- An edge leads from a node to one below it in the tree. -/
theorem above_of_isEdge (h : tree.Linked) {i j u v : Nat}
    (hu : (drawnSources sheet tree)[i]? = some u)
    (hv : (drawnSources sheet tree)[j]? = some v) (hedge : (spliced sheet tree).IsEdge i j) :
    tree.Above u v := by
  obtain ⟨above, id, hi, hj, hnear⟩ := (isEdge_spliced_iff h).mp hedge
  obtain rfl : above = u := Option.some.inj (hi.symm.trans hu)
  obtain rfl : id = v := Option.some.inj (hj.symm.trans hv)
  exact ((StyleSheet.nearest?_eq_some_iff h).mp hnear).2.1

theorem exists_source_of_isEdge (h : tree.Linked) {i j : Nat}
    (hedge : (spliced sheet tree).IsEdge i j) :
    (∃ u, (drawnSources sheet tree)[i]? = some u) ∧
      ∃ v, (drawnSources sheet tree)[j]? = some v := by
  obtain ⟨above, id, hi, hj, _⟩ := (isEdge_spliced_iff h).mp hedge
  exact ⟨⟨above, hi⟩, ⟨id, hj⟩⟩

/-- A node below an included node has a nearest one, at or below that node. -/
theorem exists_nearest? (h : tree.Linked) {u v : Nat} (habove : tree.Above u v)
    (hin : sheet.includes tree u = true) :
    ∃ near, sheet.nearest? tree v = some near ∧ tree.AtOrAbove u near := by
  have hsome : (sheet.nearest? tree v).isSome = true :=
    List.find?_isSome.mpr ⟨u, (Tree.mem_ancestors_iff h).mpr habove, hin⟩
  obtain ⟨near, hnear⟩ := Option.isSome_iff_exists.mp hsome
  exact ⟨near, hnear, ((StyleSheet.nearest?_eq_some_iff h).mp hnear).2.2 u hin habove⟩

/-- Paths of edges are chains of parents with the nodes left out skipped. -/
theorem transGen_isEdge_iff_above (h : tree.Linked) {i j u v : Nat}
    (hu : (drawnSources sheet tree)[i]? = some u) (hv : (drawnSources sheet tree)[j]? = some v) :
    Relation.TransGen (spliced sheet tree).IsEdge i j ↔ tree.Above u v := by
  constructor
  · intro hpath
    induction hpath generalizing v with
    | single hedge => exact above_of_isEdge h hu hv hedge
    | tail _ hedge ih =>
      obtain ⟨⟨w, hw⟩, _⟩ := exists_source_of_isEdge h hedge
      exact (ih hw).trans (above_of_isEdge h hw hv hedge)
  · intro habove
    -- the last edge comes from the nearest included node, which has a smaller number
    induction v using Nat.strongRecOn generalizing j with
    | ind v ih =>
      obtain ⟨near, hnear, hle⟩ := exists_nearest? h habove (includes_of_drawnSources hu)
      obtain ⟨hin, hnv, _⟩ := (StyleSheet.nearest?_eq_some_iff h).mp hnear
      obtain ⟨k, hk⟩ := exists_place h (Nat.lt_trans (hnv.lt h) hnv.lt_size) hin
      have hedge : (spliced sheet tree).IsEdge k j :=
        (isEdge_spliced_iff h).mpr ⟨near, v, hk, hv, hnear⟩
      rcases Tree.atOrAbove_iff.mp hle with rfl | hun
      · rw [place_unique h hu hk]
        exact Relation.TransGen.single hedge
      · exact (ih near (hnv.lt h) hk hun).tail hedge

/-- Paths of edges are the lines of descent of the tree, seen through the drawn nodes. -/
theorem reflTransGen_isEdge_iff_atOrAbove (h : tree.Linked) {i j u v : Nat}
    (hu : (drawnSources sheet tree)[i]? = some u) (hv : (drawnSources sheet tree)[j]? = some v) :
    Relation.ReflTransGen (spliced sheet tree).IsEdge i j ↔ tree.AtOrAbove u v := by
  rw [Relation.reflTransGen_iff_eq_or_transGen, Tree.atOrAbove_iff,
    transGen_isEdge_iff_above h hu hv]
  refine or_congr_left ⟨?_, ?_⟩
  · rintro rfl
    exact Option.some.inj (hv.symm.trans hu)
  · rintro rfl
    exact place_unique h hv hu

theorem lt_of_above (h : tree.Linked) {i j u v : Nat} (hu : (drawnSources sheet tree)[i]? = some u)
    (hv : (drawnSources sheet tree)[j]? = some v) (habove : tree.Above u v) : i < j := by
  have hpair : (drawnSources sheet tree).Pairwise fun a b => ¬ tree.AtOrAbove b a :=
    (topDown_preorder h).pairwise.filter _
  obtain ⟨hi, rfl⟩ := List.getElem?_eq_some_iff.mp hu
  obtain ⟨hj, rfl⟩ := List.getElem?_eq_some_iff.mp hv
  rcases Nat.lt_trichotomy i j with hlt | rfl | hlt
  · exact hlt
  · exact absurd (habove.lt h) (Nat.lt_irrefl _)
  · exact absurd habove.to_reflTransGen (List.pairwise_iff_getElem.mp hpair j i hj hi hlt)

/-- An edge leads to a node drawn later, so no path of them returns. -/
theorem lt_of_isEdge (h : tree.Linked) {i j : Nat} (hedge : (spliced sheet tree).IsEdge i j) :
    i < j := by
  obtain ⟨⟨u, hu⟩, ⟨v, hv⟩⟩ := exists_source_of_isEdge h hedge
  exact lt_of_above h hu hv (above_of_isEdge h hu hv hedge)

theorem lt_of_transGen_isEdge (h : tree.Linked) {i j : Nat}
    (hpath : Relation.TransGen (spliced sheet tree).IsEdge i j) : i < j := by
  induction hpath with
  | single hedge => exact lt_of_isEdge h hedge
  | tail _ hedge ih => exact Nat.lt_trans ih (lt_of_isEdge h hedge)

/-! ## Roots -/

theorem parent?_spliced_eq_none_iff (h : tree.Linked) {id : Nat} :
    (spliced sheet tree).parent? id = none ↔ ∀ start, ¬ (spliced sheet tree).IsEdge start id := by
  rw [spliced, Drawing.parent?_indexed (wellKept_spliced h sheet), Drawing.parent?_eq_none_iff]
  constructor
  · intro hnone start hedge
    exact hnone (List.mem_map.mpr ⟨_, Array.mem_toList_iff.mpr hedge, rfl⟩)
  · intro hnone hstop
    obtain ⟨edge, hedge, rfl⟩ := List.mem_map.mp hstop
    exact hnone edge.start (Array.mem_toList_iff.mp hedge)

theorem isRoot_spliced_iff (h : tree.Linked) {id : Nat} :
    (spliced sheet tree).IsRoot id ↔
      id < (spliced sheet tree).size ∧ ∀ start, ¬ (spliced sheet tree).IsEdge start id := by
  have hget {place : Nat} {node : Node} (hnode : (spliced sheet tree).get? place = some node) :
      node.id = place :=
    (wellKept_spliced h sheet).id_eq hnode
  constructor
  · rintro ⟨node, hnode, rfl⟩
    obtain ⟨hmem, hnone⟩ := List.mem_filter.mp hnode
    obtain ⟨place, hplace⟩ := Array.mem_iff_getElem?.mp (Array.mem_toList_iff.mp hmem)
    refine ⟨?_, (parent?_spliced_eq_none_iff h).mp (Option.isNone_iff_eq_none.mp hnone)⟩
    rw [hget hplace]
    exact (Array.getElem?_eq_some_iff.mp hplace).1
  · rintro ⟨hlt, hnone⟩
    have hid := hget (Array.getElem?_eq_getElem hlt)
    refine ⟨_, List.mem_filter.mpr ⟨Array.mem_toList_iff.mpr (Array.getElem_mem hlt), ?_⟩, hid⟩
    rw [hid]
    exact Option.isNone_iff_eq_none.mpr ((parent?_spliced_eq_none_iff h).mpr hnone)

theorem isEdge_leftUnique (h : tree.Linked) {i k j : Nat}
    (hi : (spliced sheet tree).IsEdge i j) (hk : (spliced sheet tree).IsEdge k j) : i = k := by
  obtain ⟨u, v, hu, hv, hnear⟩ := (isEdge_spliced_iff h).mp hi
  obtain ⟨u', v', hu', hv', hnear'⟩ := (isEdge_spliced_iff h).mp hk
  obtain rfl : v = v' := Option.some.inj (hv.symm.trans hv')
  obtain rfl : u = u' := Option.some.inj (hnear.symm.trans hnear')
  exact place_unique h hu hu'

/-- Every drawn node is reached from a root. -/
theorem exists_root_above (h : tree.Linked) {j : Nat} (hj : j < (spliced sheet tree).size) :
    ∃ r, (spliced sheet tree).IsRoot r ∧
      Relation.ReflTransGen (spliced sheet tree).IsEdge r j := by
  induction j using Nat.strongRecOn with
  | ind j ih =>
    by_cases hedge : ∃ i, (spliced sheet tree).IsEdge i j
    · obtain ⟨i, hi⟩ := hedge
      have hlt := lt_of_isEdge h hi
      obtain ⟨r, hr, hpath⟩ := ih i hlt (Nat.lt_trans hlt hj)
      exact ⟨r, hr, hpath.tail hi⟩
    · exact ⟨j, (isRoot_spliced_iff h).mpr ⟨hj, fun i hi => hedge ⟨i, hi⟩⟩, .refl⟩

/-- Edges into a node come from one place, so its way up is one chain and ends in
one root. -/
theorem root_unique (h : tree.Linked) {j r s : Nat} (hr : (spliced sheet tree).IsRoot r)
    (hs : (spliced sheet tree).IsRoot s)
    (hrj : Relation.ReflTransGen (spliced sheet tree).IsEdge r j)
    (hsj : Relation.ReflTransGen (spliced sheet tree).IsEdge s j) : r = s := by
  have hunique : Relator.RightUnique (Function.swap (spliced sheet tree).IsEdge) :=
    fun _ _ _ hi hk => isEdge_leftUnique h hi hk
  have key {a b : Nat} (hb : (spliced sheet tree).IsRoot b)
      (hab : Relation.ReflTransGen (spliced sheet tree).IsEdge a b) : a = b := by
    rcases hab.cases_tail with heq | ⟨c, _, hedge⟩
    · exact heq.symm
    · exact absurd hedge (((isRoot_spliced_iff h).mp hb).2 c)
  rcases Relation.ReflTransGen.total_of_right_unique hunique hrj.swap hsj.swap with hsr | hrs
  · exact (key hr hsr.swap).symm
  · exact key hs hrs.swap

/-! ## Blocks of numbers -/

theorem size_spliced (h : tree.Linked) (sheet : StyleSheet) :
    (spliced sheet tree).size = (drawnSources sheet tree).length :=
  size_splice (topDown_preorder h).lt_size

theorem exists_source (h : tree.Linked) {i : Nat} (hi : i < (spliced sheet tree).size) :
    ∃ u, (drawnSources sheet tree)[i]? = some u :=
  ⟨_, List.getElem?_eq_getElem (size_spliced h sheet ▸ hi)⟩

/-- The sources at or below a source are one block of them. -/
theorem drawnSources_split (h : tree.Linked) {i u : Nat}
    (hu : (drawnSources sheet tree)[i]? = some u) :
    ∃ front back, drawnSources sheet tree =
        front ++ sources sheet tree (tree.preorder u) ++ back ∧ front.length = i := by
  have hmem := mem_sources.mp (List.mem_of_getElem? hu)
  obtain ⟨front, back, hsplit⟩ :=
    Tree.preorder_isInfix h ((Tree.mem_preorder_iff h).mp hmem.1)
  have hsources : drawnSources sheet tree = sources sheet tree front ++
      sources sheet tree (tree.preorder u) ++ sources sheet tree back := by
    rw [drawnSources, ← hsplit, sources, List.filter_append, List.filter_append]
    rfl
  refine ⟨_, _, hsources, ?_⟩
  -- the block begins with `u`, and `u` has no second place
  have hhead : sources sheet tree (tree.preorder u) =
      u :: sources sheet tree ((tree.children u).flatMap tree.preorder) := by
    rw [Tree.preorder_eq h, sources, List.filter_cons_of_pos hmem.2]
    rfl
  refine place_unique h ?_ hu
  rw [hsources, hhead, List.append_assoc, List.getElem?_append_right (Nat.le_refl _), Nat.sub_self]
  rfl

/-- A node leads to exactly the nodes of a block of numbers that begins with it. -/
theorem reflTransGen_isEdge_iff_block (h : tree.Linked) {i : Nat}
    (hi : i < (spliced sheet tree).size) :
    ∃ stop ≤ (spliced sheet tree).size, ∀ j,
      Relation.ReflTransGen (spliced sheet tree).IsEdge i j ↔ i ≤ j ∧ j < stop := by
  obtain ⟨u, hu⟩ := exists_source h hi
  obtain ⟨front, back, hsplit, hfront⟩ := drawnSources_split h hu
  have hlength : (drawnSources sheet tree).length =
      i + (sources sheet tree (tree.preorder u)).length + back.length := by
    rw [hsplit, List.length_append, List.length_append, hfront]
  refine ⟨i + (sources sheet tree (tree.preorder u)).length, ?_, fun j => ⟨?_, ?_⟩⟩
  · rw [size_spliced h, hlength]
    exact Nat.le_add_right _ _
  · intro hpath
    obtain ⟨v, hv⟩ : ∃ v, (drawnSources sheet tree)[j]? = some v := by
      rcases hpath.cases_tail with rfl | ⟨k, _, hedge⟩
      · exact ⟨u, hu⟩
      · exact (exists_source_of_isEdge h hedge).2
    have habove := (reflTransGen_isEdge_iff_atOrAbove h hu hv).mp hpath
    have hmem : v ∈ sources sheet tree (tree.preorder u) :=
      mem_sources.mpr ⟨(Tree.mem_preorder_iff h).mpr habove, includes_of_drawnSources hv⟩
    obtain ⟨k, hk⟩ := List.mem_iff_getElem?.mp hmem
    have hklt := (List.getElem?_eq_some_iff.mp hk).1
    have hplace : (drawnSources sheet tree)[i + k]? = some v := by
      rw [hsplit, List.append_assoc, List.getElem?_append_right (by omega), hfront,
        Nat.add_sub_cancel_left, List.getElem?_append_left hklt, hk]
    obtain rfl := place_unique h hv hplace
    exact ⟨Nat.le_add_right _ _, Nat.add_lt_add_left hklt i⟩
  · rintro ⟨hle, hlt⟩
    obtain ⟨k, rfl⟩ := Nat.exists_eq_add_of_le hle
    have hklt : k < (sources sheet tree (tree.preorder u)).length := Nat.lt_of_add_lt_add_left hlt
    have hv : (drawnSources sheet tree)[i + k]? =
        some (sources sheet tree (tree.preorder u))[k] := by
      rw [hsplit, List.append_assoc, List.getElem?_append_right (by omega), hfront,
        Nat.add_sub_cancel_left, List.getElem?_append_left hklt, List.getElem?_eq_getElem hklt]
    refine (reflTransGen_isEdge_iff_atOrAbove h hu hv).mpr ?_
    exact (Tree.mem_preorder_iff h).mp (mem_sources.mp (List.getElem_mem hklt)).1

/-- **Paths are ancestry.**  In the forest of a tree, a path of edges leads from
one drawn node to another exactly where the one stands above the other in the
tree.  Edges lead to greater numbers, so that there is no cycle; no two lead to
one node; each node is below exactly one root; and each node leads to a block of
numbers that begins with its own. -/
theorem build_paths_are_ancestry (sheet : StyleSheet) (h : tree.Reachable) :
    ∃ forest, build sheet tree = .ok forest ∧
      (∀ {u v i j}, forest.drawn? u = some i → forest.drawn? v = some j →
        (Relation.TransGen forest.IsEdge i j ↔ tree.Above u v)) ∧
      (∀ edge ∈ forest.edges, edge.start < edge.stop) ∧
      (∀ i, ¬ Relation.TransGen forest.IsEdge i i) ∧
      (∀ {i k j}, forest.IsEdge i j → forest.IsEdge k j → i = k) ∧
      (∀ i < forest.size, ∃! r, forest.IsRoot r ∧ Relation.ReflTransGen forest.IsEdge r i) ∧
      (∀ i < forest.size, ∃ stop ≤ forest.size, ∀ j,
        Relation.ReflTransGen forest.IsEdge i j ↔ i ≤ j ∧ j < stop) := by
  have hl := h.linked
  refine ⟨spliced sheet tree, build_eq_spliced hl sheet, ?_, ?_, ?_, ?_, ?_, ?_⟩
  · intro u v i j hu hv
    exact transGen_isEdge_iff_above hl ((drawn?_spliced_iff hl).mp hu)
      ((drawn?_spliced_iff hl).mp hv)
  · intro edge hedge
    exact lt_of_isEdge hl hedge
  · intro i hcycle
    exact Nat.lt_irrefl i (lt_of_transGen_isEdge hl hcycle)
  · intro i k j hi hk
    exact isEdge_leftUnique hl hi hk
  · intro i hi
    obtain ⟨r, hr, hpath⟩ := exists_root_above hl hi
    exact ⟨r, ⟨hr, hpath⟩, fun s hs => root_unique hl hs.1 hr hs.2 hpath⟩
  · intro i hi
    exact reflTransGen_isEdge_iff_block hl hi

/-- The return of the first method is below it, across the block that is left
out. -/
theorem build_paths_are_ancestry_twoMethods :
    twoMethods.Reachable ∧
    ∃ forest, build methodsAndReturns twoMethods = .ok forest ∧
      forest.drawn? 1 = some 0 ∧ forest.drawn? 4 = some 1 ∧
      (Relation.TransGen forest.IsEdge 0 1 ↔ twoMethods.Above 1 4) := by
  refine ⟨twoMethods_reachable, ?_⟩
  obtain ⟨forest, hbuild, hpaths, _⟩ :=
    build_paths_are_ancestry methodsAndReturns twoMethods_reachable
  have hvalue : (build methodsAndReturns twoMethods).toOption.map
      (fun forest => (forest.drawn? 1, forest.drawn? 4)) = some (some 0, some 1) := by
    decide +kernel
  rw [hbuild] at hvalue
  obtain ⟨hmethod, hreturn⟩ := Prod.mk.inj (Option.some.inj hvalue)
  exact ⟨forest, hbuild, hmethod, hreturn, hpaths hmethod hreturn⟩

end SyntaxForest.Forest
