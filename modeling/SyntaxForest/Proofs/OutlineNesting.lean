import Mathlib.Data.List.Nodup
import SyntaxForest.Proofs.OutlineLevels

/-! How the entries of an outline nest.  The entry of a node stands one level below that
of its shown parent, the nearest ancestor that is not hidden, and between the two
there are only entries of deeper levels.  So the indentations alone tell which entry
is the parent of which. -/

namespace SyntaxForest

/-- The name of a category is a word of letters. -/
theorem Category.name_spec (category : Category) :
    category.name.toList ≠ [] ∧ ∀ c ∈ category.name.toList, c.isAlpha = true := by
  have hall : (Category.all.all fun each =>
      !each.name.toList.isEmpty && each.name.toList.all Char.isAlpha) = true := by
    decide +kernel
  have hname := List.all_eq_true.mp hall category category.mem_all
  rw [Bool.and_eq_true, List.all_eq_true] at hname
  exact ⟨by simpa using hname.1, hname.2⟩

namespace Tree
variable {tree : Tree}

/-- What follows a node in a chain of ancestors is the chain of that node. -/
theorem eq_ancestors_of_ancestors_eq (h : tree.Linked) {id above : Nat} {near far : List Nat}
    (hsplit : tree.ancestors id = near ++ above :: far) : far = tree.ancestors above := by
  induction near generalizing id with
  | nil =>
    cases hp : tree.parent? id with
    | none =>
      rw [ancestors_of_parent?_eq_none hp] at hsplit
      cases hsplit
    | some parent =>
      rw [ancestors_of_isParent h hp] at hsplit
      obtain ⟨rfl, hfar⟩ := List.cons.inj hsplit
      exact hfar.symm
  | cons first near ih =>
    cases hp : tree.parent? id with
    | none =>
      rw [ancestors_of_parent?_eq_none hp] at hsplit
      cases hsplit
    | some parent =>
      rw [ancestors_of_isParent h hp] at hsplit
      exact ih (List.cons.inj hsplit).2

/-- Document order from a node that stands above another one: in between there are only
nodes below the first. -/
theorem exists_preorder_split (h : tree.Linked) {above id : Nat} (habove : tree.Above above id) :
    ∃ front between back, tree.preorder root = front ++ above :: (between ++ id :: back) ∧
      ∀ x ∈ between, tree.Above above x := by
  have hroot := atOrAbove_root h (Nat.lt_trans (habove.lt h) habove.lt_size)
  -- all that is at or below a node stands together in document order
  obtain ⟨front, back, hblock⟩ := preorder_isInfix h hroot
  obtain ⟨between, after, hsplit⟩ := List.append_of_mem ((mem_flatMap_preorder_iff h).mpr habove)
  refine ⟨front, between, after ++ back, ?_, ?_⟩
  · rw [← hblock, preorder_eq h above, hsplit]
    simp
  · intro x hx
    apply (mem_flatMap_preorder_iff h).mp
    rw [hsplit]
    exact List.mem_append_left _ hx

end Tree

namespace Outline
variable {outline : Outline} {tree : Tree}

/-- The nearest ancestor of a node that is not hidden. -/
def parent? (outline : Outline) (tree : Tree) (id : Nat) : Option Nat :=
  (tree.ancestors id).find? fun above => !outline.isHidden tree above

theorem level_le_depth (outline : Outline) (tree : Tree) (id : Nat) :
    outline.level tree id ≤ (tree.ancestors id).length :=
  List.countP_le_length

/-- A node that is not hidden counts for all nodes below it. -/
theorem level_lt_of_above (h : tree.Linked) {above id : Nat} (habove : tree.Above above id)
    (hkept : outline.isHidden tree above = false) :
    outline.level tree above < outline.level tree id := by
  obtain ⟨near, far, hsplit⟩ := List.append_of_mem ((Tree.mem_ancestors_iff h).mpr habove)
  obtain rfl := Tree.eq_ancestors_of_ancestors_eq h hsplit
  rw [level, level, hsplit, List.countP_append, List.countP_cons_of_pos (by simp [hkept])]
  omega

/-- The shown parent stands above the node, is not hidden, and one level higher. -/
theorem parent?_spec (h : tree.Linked) {above id : Nat}
    (hparent : outline.parent? tree id = some above) :
    tree.Above above id ∧ outline.isHidden tree above = false ∧
      outline.level tree id = outline.level tree above + 1 := by
  obtain ⟨hkept, near, far, hsplit, hnear⟩ := List.find?_eq_some_iff_append.mp hparent
  have hmem : above ∈ tree.ancestors id := by simp [hsplit]
  refine ⟨(Tree.mem_ancestors_iff h).mp hmem, by simpa using hkept, ?_⟩
  obtain rfl := Tree.eq_ancestors_of_ancestors_eq h hsplit
  have hzero : near.countP (fun other => !outline.isHidden tree other) = 0 := by
    rw [List.countP_eq_zero]
    intro other hother
    simpa using hnear other hother
  rw [level, hsplit, List.countP_append, hzero,
    List.countP_cons_of_pos (by exact hkept), Nat.zero_add]
  rfl

theorem level_lt_of_parent? (h : tree.Linked) {above id : Nat}
    (hparent : outline.parent? tree id = some above) :
    outline.level tree above < outline.level tree id := by
  rw [(parent?_spec h hparent).2.2]
  exact Nat.lt_succ_self _

/-- Every node but the root has a shown parent, at least the root. -/
theorem exists_parent? (h : tree.Linked) {id : Nat} (hid : id < tree.size) (hne : id ≠ Tree.root) :
    ∃ above, outline.parent? tree id = some above := by
  have habove : tree.Above Tree.root id :=
    (Tree.atOrAbove_iff.mp (Tree.atOrAbove_root h hid)).resolve_left hne
  refine Option.isSome_iff_exists.mp (List.find?_isSome.mpr
    ⟨Tree.root, (Tree.mem_ancestors_iff h).mpr habove, ?_⟩)
  rw [isHidden_root h]
  rfl

/-! ## Entries between a node and its shown parent -/

theorem mem_rows_iff (h : tree.Linked) {id : Nat} :
    id ∈ outline.rows tree ↔ id < tree.size ∧ outline.isHidden tree id = false ∧
      (tree.ancestors id).length ≤ outline.maxDepth := by
  rw [rows, List.mem_filter, Tree.mem_preorder_root_iff h, isShown]
  simp

/-- A node that stands above one with an entry is no deeper, and has an entry as well
unless it is hidden. -/
theorem mem_rows_of_above (h : tree.Linked) {above id : Nat} (hid : id ∈ outline.rows tree)
    (habove : tree.Above above id) (hkept : outline.isHidden tree above = false) :
    above ∈ outline.rows tree := by
  obtain ⟨hsize, _, hdepth⟩ := (mem_rows_iff h).mp hid
  obtain ⟨near, far, hsplit⟩ := List.append_of_mem ((Tree.mem_ancestors_iff h).mpr habove)
  obtain rfl := Tree.eq_ancestors_of_ancestors_eq h hsplit
  rw [hsplit, List.length_append, List.length_cons] at hdepth
  exact (mem_rows_iff h).mpr ⟨Nat.lt_trans (habove.lt h) hsize, hkept, by omega⟩

theorem nodup_rows (h : tree.Linked) : (outline.rows tree).Nodup :=
  (Tree.preorder_nodup h Tree.root).filter _

/-- The entry of the shown parent comes earlier, and the entries in between are those of
nodes below it. -/
theorem exists_rows_split (h : tree.Linked) {above id : Nat} (hid : id ∈ outline.rows tree)
    (hparent : outline.parent? tree id = some above) :
    ∃ front between back, outline.rows tree = front ++ above :: (between ++ id :: back) ∧
      ∀ x ∈ between, outline.level tree id ≤ outline.level tree x := by
  obtain ⟨habove, hkept, hlevel⟩ := parent?_spec h hparent
  obtain ⟨front, between, back, hsplit, hbetween⟩ := Tree.exists_preorder_split h habove
  have hshown : outline.isShown tree above = true :=
    (List.mem_filter.mp (mem_rows_of_above h hid habove hkept)).2
  have hshown' : outline.isShown tree id = true := (List.mem_filter.mp hid).2
  refine ⟨front.filter (outline.isShown tree), between.filter (outline.isShown tree),
    back.filter (outline.isShown tree), ?_, ?_⟩
  · rw [rows, hsplit, List.filter_append, List.filter_cons_of_pos hshown, List.filter_append,
      List.filter_cons_of_pos hshown']
  · intro x hx
    rw [hlevel]
    exact level_lt_of_above h (hbetween x (List.mem_of_mem_filter hx)) hkept

/-- Going back from an entry, the first one of a smaller level is that of the shown
parent. -/
theorem find?_reverse_rows (h : tree.Linked) {before after : List Nat} {id above : Nat}
    (hrows : outline.rows tree = before ++ id :: after)
    (hparent : outline.parent? tree id = some above) :
    above ∈ before ∧
      before.reverse.find? (fun earlier => outline.level tree earlier < outline.level tree id) =
        some above := by
  have hid : id ∈ outline.rows tree := by simp [hrows]
  obtain ⟨front, between, back, hsplit, hbetween⟩ := exists_rows_split h hid hparent
  -- no node has two entries, so the rows can be split at `id` in one way only
  have hbefore : before = front ++ above :: between := by
    have hnodup : (outline.rows tree).Nodup := nodup_rows h
    rw [hrows, List.nodup_middle, List.nodup_cons, List.mem_append, not_or] at hnodup
    rw [hsplit, ← List.cons_append, ← List.append_assoc] at hrows
    exact ((List.append_cons_inj_of_notMem hnodup.1.1 hnodup.1.2).mp hrows.symm).1
  refine ⟨by simp [hbefore], ?_⟩
  have hnone : between.reverse.find?
      (fun earlier => outline.level tree earlier < outline.level tree id) = none := by
    rw [List.find?_eq_none]
    intro x hx
    simpa using hbetween x (List.mem_reverse.mp hx)
  have hlt := level_lt_of_parent? h hparent
  rw [hbefore, List.reverse_append, List.reverse_cons, List.append_assoc, List.find?_append, hnone,
    Option.none_or, List.singleton_append, List.find?_cons_of_pos (by simpa using hlt)]

/-! ## Reading the nesting off the indentations -/

/-- The place of the closest number before `row` that is smaller than the one there. -/
def closest? (widths : List Nat) (row : Nat) : Option Nat :=
  (List.range row).reverse.find? fun earlier => widths.getD earlier 0 < widths.getD row 0

/-- The nesting that a list of indentations tells: for each the place of the closest
earlier one that is smaller. -/
def nesting (widths : List Nat) : List (Option Nat) :=
  (List.range widths.length).map (closest? widths)

theorem find?_reverse_range {p : Nat → Bool} {n place : Nat} (hlt : place < n)
    (hplace : p place = true) (hbetween : ∀ k, place < k → k < n → p k = false) :
    (List.range n).reverse.find? p = some place := by
  induction n with
  | zero => exact absurd hlt (Nat.not_lt_zero place)
  | succ n ih =>
    rw [List.range_succ, List.reverse_append, List.reverse_singleton, List.singleton_append]
    rcases Nat.lt_succ_iff_lt_or_eq.mp hlt with hbefore | rfl
    · rw [List.find?_cons_of_neg (by simp [hbetween n hbefore (Nat.lt_succ_self n)])]
      exact ih hbefore fun k hk hkn => hbetween k hk (Nat.lt_succ_of_lt hkn)
    · exact List.find?_cons_of_pos hplace

/-- A smaller number with none smaller in between is the closest. -/
theorem closest?_append {front between back : List Nat} {small large : Nat} (hlt : small < large)
    (hbetween : ∀ x ∈ between, large ≤ x) :
    closest? (front ++ small :: (between ++ large :: back)) (front.length + 1 + between.length) =
      some front.length := by
  have hafter (k : Nat) : (front ++ small :: (between ++ large :: back))[front.length + 1 + k]? =
      (between ++ large :: back)[k]? := by
    rw [List.getElem?_append_right (by omega), Nat.add_assoc, Nat.add_sub_cancel_left, Nat.add_comm,
      List.getElem?_cons_succ]
  have hlarge : (front ++ small :: (between ++ large :: back)).getD
      (front.length + 1 + between.length) 0 = large := by
    rw [List.getD_eq_getElem?_getD, hafter]
    simp
  unfold closest?
  rw [hlarge]
  refine find?_reverse_range (by omega) (by simpa using hlt) ?_
  intro k hk hk'
  obtain ⟨j, rfl⟩ := Nat.exists_eq_add_of_le hk
  have hj : j < between.length := by omega
  rw [decide_eq_false_iff_not, Nat.not_lt, List.getD_eq_getElem?_getD, hafter,
    List.getElem?_append_left hj, List.getElem?_eq_getElem hj]
  exact hbetween _ (List.getElem_mem hj)

theorem closest?_map_mul (widths : List Nat) {width : Nat} (h : 0 < width) (row : Nat) :
    closest? (widths.map (· * width)) row = closest? widths row := by
  have hget (k : Nat) : (widths.map (· * width)).getD k 0 = widths.getD k 0 * width := by
    rw [List.getD_eq_getElem?_getD, List.getD_eq_getElem?_getD, List.getElem?_map]
    cases widths[k]? with
    | none => simp
    | some value => rfl
  simp only [closest?, hget, Nat.mul_lt_mul_right h]

/-- Only the order of the indentations counts. -/
theorem nesting_map_mul (widths : List Nat) {width : Nat} (h : 0 < width) :
    nesting (widths.map (· * width)) = nesting widths := by
  rw [nesting, List.length_map, nesting]
  exact List.map_congr_left fun row _ => closest?_map_mul widths h row

/-- The closest earlier entry of a smaller level is that of the shown parent. -/
theorem closest?_rows (h : tree.Linked) {row id : Nat} (hid : (outline.rows tree)[row]? = some id) :
    closest? ((outline.rows tree).map (outline.level tree)) row =
      (outline.parent? tree id).map (outline.rows tree).idxOf := by
  have hmem : id ∈ outline.rows tree := List.mem_of_getElem? hid
  by_cases hroot : id = Tree.root
  · -- the root has level 0, and no level is smaller
    have hlevel : ((outline.rows tree).map (outline.level tree)).getD row 0 = 0 := by
      rw [List.getD_eq_getElem?_getD, List.getElem?_map, hid, hroot]
      simp [level, Tree.ancestors_of_parent?_eq_none h.parent?_root]
    have hparent : outline.parent? tree id = none := by
      rw [parent?, hroot, Tree.ancestors_of_parent?_eq_none h.parent?_root, List.find?_nil]
    rw [hparent, closest?, hlevel]
    simp
  · obtain ⟨above, hparent⟩ : ∃ above, outline.parent? tree id = some above :=
      exists_parent? h ((mem_rows_iff h).mp hmem).1 hroot
    obtain ⟨front, between, back, hsplit, hbetween⟩ := exists_rows_split h hmem hparent
    have hnodup : (outline.rows tree).Nodup := nodup_rows h
    have hrow : row = front.length + 1 + between.length := by
      refine (List.getElem?_inj (List.getElem?_eq_some_iff.mp hid).1 hnodup).mp (hid.trans ?_)
      rw [hsplit, List.getElem?_append_right (by omega), Nat.add_assoc, Nat.add_sub_cancel_left,
        Nat.add_comm, List.getElem?_cons_succ, List.getElem?_append_right (Nat.le_refl _),
        Nat.sub_self]
      rfl
    have hplace : (outline.rows tree).idxOf above = front.length := by
      have hfresh : above ∉ front := by
        rw [hsplit, List.nodup_append] at hnodup
        exact fun hin => hnodup.2.2 above hin above List.mem_cons_self rfl
      rw [hsplit, List.idxOf_append_of_notMem hfresh, List.idxOf_cons_self, Nat.add_zero]
    have hlt := level_lt_of_parent? h hparent
    have hlevels : ∀ level ∈ between.map (outline.level tree), outline.level tree id ≤ level := by
      intro level hlevel
      obtain ⟨x, hx, rfl⟩ := List.mem_map.mp hlevel
      exact hbetween x hx
    have hclosest : closest? (front.map (outline.level tree) ++ outline.level tree above ::
        (between.map (outline.level tree) ++ outline.level tree id ::
          back.map (outline.level tree))) _ = some (front.map (outline.level tree)).length :=
      closest?_append hlt hlevels
    rw [List.length_map, List.length_map] at hclosest
    rw [hparent, Option.map_some, hplace, hrow, hsplit, List.map_append, List.map_cons,
      List.map_append, List.map_cons, hclosest]

/-- For each entry the place of the entry of its shown parent. -/
def parents (outline : Outline) (tree : Tree) : List (Option Nat) :=
  (outline.rows tree).map fun id => (outline.parent? tree id).map (outline.rows tree).idxOf

/-- **The levels tell the nesting** of the entries. -/
theorem parents_eq_nesting (h : tree.Linked) (outline : Outline) :
    outline.parents tree = nesting ((outline.rows tree).map (outline.level tree)) := by
  rw [parents, nesting, List.length_map]
  refine List.ext_getElem? fun row => ?_
  rw [List.getElem?_map, List.getElem?_map]
  cases hid : (outline.rows tree)[row]? with
  | none =>
    rw [List.getElem?_eq_none_iff] at hid
    simp [hid]
  | some id =>
    rw [List.getElem?_range (List.getElem?_eq_some_iff.mp hid).1, Option.map_some, Option.map_some,
      closest?_rows h hid]

/-! ## The text -/

/-- The entry of a node of the tree. -/
def rowText (outline : Outline) (tree : Tree) (id : Nat) : String :=
  ((tree.get? id).map (outline.entry (outline.level tree id))).getD ""

/-- How many blanks a text begins with. -/
def indentation (text : String) : Nat :=
  (text.toList.takeWhile (· = ' ')).length

theorem entries_eq_rows (h : tree.Linked) (outline : Outline) :
    outline.entries tree =
      (outline.rows tree).map fun id => (outline.level tree id, outline.rowText tree id) := by
  rw [entries, shown_eq h, List.map_filterMap, ← List.filterMap_eq_map]
  refine List.filterMap_congr fun id hid => ?_
  obtain ⟨node, hnode⟩ := Tree.exists_get? ((mem_rows_iff h).mp hid).1
  simp [row?, rowText, hnode]

/-- An outline is written from its rows, unless one is indented too far. -/
theorem render_eq_rows (h : tree.Linked) (outline : Outline) :
    outline.render tree =
      if ∀ id ∈ outline.rows tree, outline.level tree id * outline.indent ≤ indentLimit then
        .ok (String.join ((outline.rows tree).map (outline.rowText tree)))
      else .error .tooWide := by
  rw [render_eq, entries_eq_rows h, List.all_map, List.map_map]
  refine if_congr ?_ rfl rfl
  rw [List.all_eq_true]
  simp

/-- An entry is its unindented text behind blanks. -/
theorem entry_eq_append (outline : Outline) (level : Nat) (node : Tree.Node) :
    outline.entry level node =
      String.ofList (List.replicate (level * outline.indent) ' ') ++ outline.entry 0 node := by
  simp only [entry, Nat.zero_mul, List.replicate_zero, String.ofList_nil, String.empty_append,
    String.append_assoc]

/-- Without indentation an entry begins with the name of its category. -/
theorem entry_zero_eq (outline : Outline) (node : Tree.Node) :
    ∃ rest, (outline.entry 0 node).toList = node.category.name.toList ++ rest := by
  simp only [entry, Nat.zero_mul, List.replicate_zero, String.ofList_nil, String.empty_append,
    String.append_assoc, String.toList_append]
  exact ⟨_, rfl⟩

theorem indentation_entry (outline : Outline) (level : Nat) (node : Tree.Node) :
    indentation (outline.entry level node) = level * outline.indent := by
  obtain ⟨rest, hentry⟩ := outline.entry_zero_eq node
  have hfirst : (node.category.name.toList ++ rest).takeWhile (· = ' ') = [] := by
    cases hname : node.category.name.toList with
    | nil => exact absurd hname node.category.name_spec.1
    | cons first more =>
      refine List.takeWhile_cons_of_neg ?_
      have halpha := node.category.name_spec.2 first (hname ▸ List.mem_cons_self)
      rintro hblank
      rw [of_decide_eq_true hblank] at halpha
      exact absurd halpha (by decide)
  rw [entry_eq_append, indentation, String.toList_append, String.toList_ofList, hentry,
    List.takeWhile_append_of_pos (by simp), hfirst, List.append_nil, List.length_replicate]

/-- **An outline tells the shown tree.**  Its text has one entry for each node that is
neither hidden nor too deep, in document order, behind as many blanks as the nodes
above that are not hidden ask for; only an entry that would be indented too far is
refused.  There are no more of these nodes than the depth of the node.  The closest
earlier entry of a smaller level is that of the nearest node above that is not hidden,
and stands one level higher.  So the levels tell the nesting of the entries, and so do
the indentations where a level is indented at all. -/
theorem render_tells_nesting (h : tree.Reachable) (outline : Outline) :
    let rows := outline.rows tree
    outline.render tree =
      (if ∀ id ∈ rows, outline.level tree id * outline.indent ≤ indentLimit then
        .ok (String.join (rows.map (outline.rowText tree)))
      else .error .tooWide) ∧
    (∀ id ∈ rows, ∃ node, tree.get? id = some node ∧
      outline.rowText tree id =
        String.ofList (List.replicate (outline.level tree id * outline.indent) ' ') ++
          outline.entry 0 node ∧
      indentation (outline.rowText tree id) = outline.level tree id * outline.indent) ∧
    (∀ id, outline.level tree id ≤ (tree.ancestors id).length) ∧
    (∀ id ∈ rows, outline.level tree id ≤ outline.maxDepth) ∧
    (∀ before id after, rows = before ++ id :: after → id ≠ Tree.root →
      ∃ above ∈ before, outline.parent? tree id = some above ∧
        before.reverse.find? (fun earlier => outline.level tree earlier < outline.level tree id) =
          some above ∧
        outline.level tree id = outline.level tree above + 1) ∧
    outline.parents tree = nesting (rows.map (outline.level tree)) ∧
    (0 < outline.indent → outline.parents tree =
      nesting (rows.map fun id => indentation (outline.rowText tree id))) := by
  have hl := h.linked
  intro rows
  have htext : ∀ id ∈ rows, ∃ node, tree.get? id = some node ∧
      outline.rowText tree id = outline.entry (outline.level tree id) node := by
    intro id hid
    obtain ⟨node, hnode⟩ := Tree.exists_get? ((mem_rows_iff hl).mp hid).1
    exact ⟨node, hnode, by simp [rowText, hnode]⟩
  refine ⟨render_eq_rows hl outline, ?_, outline.level_le_depth tree, ?_, ?_,
    parents_eq_nesting hl outline, ?_⟩
  · intro id hid
    obtain ⟨node, hnode, hentry⟩ := htext id hid
    rw [hentry]
    exact ⟨node, hnode, outline.entry_eq_append _ node, outline.indentation_entry _ node⟩
  · intro id hid
    exact Nat.le_trans (outline.level_le_depth tree id) ((mem_rows_iff hl).mp hid).2.2
  · intro before id after hrows hne
    have hid : id ∈ rows := by simp [hrows]
    obtain ⟨above, hparent⟩ : ∃ above, outline.parent? tree id = some above :=
      exists_parent? hl ((mem_rows_iff hl).mp hid).1 hne
    obtain ⟨hbefore, hclosest⟩ := find?_reverse_rows hl hrows hparent
    exact ⟨above, hbefore, hparent, hclosest, (parent?_spec hl hparent).2.2⟩
  · intro hindent
    have hwidths : rows.map (fun id => indentation (outline.rowText tree id)) =
        (rows.map (outline.level tree)).map (· * outline.indent) := by
      rw [List.map_map]
      refine List.map_congr_left fun id hid => ?_
      obtain ⟨node, _, hentry⟩ := htext id hid
      rw [hentry, indentation_entry]
      rfl
    rw [hwidths, nesting_map_mul _ hindent]
    exact parents_eq_nesting hl outline

/-- A method and a field of a class.  Between the class and the method there are two
nodes without a category, and below the method there is a block. -/
def hiddenChain : Tree :=
  (Tree.singleton .compilationUnit).run
    [.push .typeDeclaration 0, .push .other 1, .push .other 2, .push .methodDeclaration 3,
     .push .block 4, .push .fieldDeclaration 1]

theorem render_tells_nesting_hiddenChain :
    hiddenChain.Reachable ∧
    render { maxDepth := 4 } hiddenChain =
      .ok "CompilationUnit\n  TypeDeclaration\n    MethodDeclaration\n    FieldDeclaration\n" ∧
    parents { maxDepth := 4 } hiddenChain = [none, some 0, some 1, some 1] := by
  have h : hiddenChain.Reachable := (Tree.Reachable.singleton _).run _
  obtain ⟨hrender, _, _, _, _, hparents, _⟩ := render_tells_nesting h { maxDepth := 4 }
  have hrows : rows { maxDepth := 4 } hiddenChain = [0, 1, 4, 6] := by decide +kernel
  refine ⟨h, ?_, ?_⟩
  · rw [hrender, hrows, if_pos (by decide +kernel)]
    decide +kernel
  · rw [hparents, hrows]
    decide +kernel

end Outline
end SyntaxForest
