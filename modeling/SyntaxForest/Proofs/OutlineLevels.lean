import SyntaxForest.Outline
import SyntaxForest.Proofs.Splice

/-! The levels of an outline.  While the tree is walked through, the level of every
node is worked out from the one noted for its parent.  A walk meets parents before
their children, so what is noted is the number of nodes above that are not hidden,
and the outline shows the nodes that are neither hidden nor too deep, in document
order. -/

namespace SyntaxForest.Outline
variable (outline : Outline) (tree : Tree)

/-- Whether the node of a number is left out for its category. -/
def isHidden (id : Nat) : Bool :=
  (tree.get? id).any outline.hides

/-- The number of ancestors of a node that are not hidden. -/
def level (id : Nat) : Nat :=
  (tree.ancestors id).countP fun above => !outline.isHidden tree above

/-- Whether a node has an entry: it is not hidden, and not too deep in the tree. -/
def isShown (id : Nat) : Bool :=
  !outline.isHidden tree id && decide ((tree.ancestors id).length ≤ outline.maxDepth)

/-- The nodes that have an entry, in document order. -/
def rows : List Nat :=
  (tree.preorder Tree.root).filter (outline.isShown tree)

/-- A node under its number, with its level. -/
def row? (id : Nat) : Option (Nat × Tree.Node) :=
  (tree.get? id).map fun node => (outline.level tree id, node)

/-- The draft tells the nodes of a list that were met: their levels are noted, and the
lines are those of the shown ones.  The level noted for a hidden node is the one
of the last node before it that is not hidden. -/
structure Draft.Tells (met : List Nat) (draft : Draft) : Prop where
  size_levels : draft.levels.size = tree.size
  level_add_one : ∀ id ∈ met, draft.levels.getD id 0 + 1 =
    (id :: tree.ancestors id).countP fun above => !outline.isHidden tree above
  lines_eq : draft.lines.toList = (met.filter (outline.isShown tree)).filterMap (outline.row? tree)

variable {outline tree}

theorem isHidden_of_get? {id : Nat} {node : Tree.Node} (h : tree.get? id = some node) :
    outline.isHidden tree id = outline.hides node := by
  rw [isHidden, h]
  rfl

theorem isHidden_root (h : tree.Linked) : outline.isHidden tree Tree.root = false := by
  obtain ⟨node, hnode⟩ := Tree.exists_get? h.root_lt_size
  have hparent : node.parent = none := (Tree.parent?_of_get? hnode).symm.trans h.parent?_root
  simp [isHidden_of_get? hnode, hides, Tree.Node.isRoot, hparent]

/-- The level of a node below nodes whose levels are noted. -/
theorem levelUnder_add_one (h : tree.Linked) {met : List Nat} {draft : Draft}
    (hdraft : draft.Tells outline tree met) {id : Nat} {node : Tree.Node}
    (hnode : tree.get? id = some node) (hmet : ∀ {above}, tree.Above above id → above ∈ met) :
    outline.levelUnder draft.levels node + 1 =
      (id :: tree.ancestors id).countP fun above => !outline.isHidden tree above := by
  have hparent := Tree.parent?_of_get? hnode
  rw [List.countP_cons, levelUnder]
  cases hp : node.parent with
  | none =>
    -- a node without a parent is the root, which is not hidden
    rw [hp] at hparent
    have hroot : id = Tree.root :=
      (Tree.parent?_eq_none_iff h (Tree.lt_size_of_get? hnode)).mp hparent
    rw [Tree.ancestors_of_parent?_eq_none hparent, hroot, isHidden_root h]
    rfl
  | some parent =>
    have hisParent : tree.IsParent parent id := hparent.trans hp
    have hnoted := hdraft.level_add_one parent (hmet (.single hisParent))
    rw [Tree.ancestors_of_isParent h hisParent, ← hnoted, isHidden_of_get? hnode]
    cases outline.hides node with
    | true => simp
    | false => simp

/-- The step: one more node is met, below nodes that were met before. -/
theorem tells_visit (h : tree.Linked) {met : List Nat} {draft : Draft}
    (hdraft : draft.Tells outline tree met) {id depth : Nat} (hid : id < tree.size)
    (hmet : ∀ {above}, tree.Above above id → above ∈ met) (hfresh : id ∉ met)
    (hdepth : depth = (tree.ancestors id).length) :
    (outline.visit tree draft (id, depth)).Tells outline tree (met ++ [id]) := by
  obtain ⟨node, hnode⟩ := Tree.exists_get? hid
  have hlevel := levelUnder_add_one h hdraft hnode hmet
  have hvisit : outline.visit tree draft (id, depth) =
      { levels := draft.levels.setIfInBounds id (outline.levelUnder draft.levels node)
        lines :=
          if outline.hides node || outline.maxDepth < depth then draft.lines
          else draft.lines.push (outline.levelUnder draft.levels node, node) } := by
    rw [visit, hnode]
  rw [hvisit]
  refine ⟨?_, ?_, ?_⟩
  · rw [Array.size_setIfInBounds, hdraft.size_levels]
  · -- the levels that were noted stay as they are
    intro each heach
    rcases List.mem_append.mp heach with hold | hnew
    · have hne : id ≠ each := fun he => hfresh (he ▸ hold)
      rw [← hdraft.level_add_one each hold]
      simp [Array.getD_eq_getD_getElem?, hne]
    · obtain rfl := List.mem_singleton.mp hnew
      have hbound : each < draft.levels.size := hdraft.size_levels ▸ hid
      rw [← hlevel]
      simp [Array.getD_eq_getD_getElem?, hbound]
  · -- a line is added exactly if the node is shown
    have hshown : outline.isShown tree id =
        !(outline.hides node || decide (outline.maxDepth < depth)) := by
      simp only [isShown, isHidden_of_get? hnode, hdepth, Bool.not_or, ← decide_not, Nat.not_lt]
    rw [List.filter_append, List.filterMap_append, ← hdraft.lines_eq]
    by_cases hleft : (outline.hides node || decide (outline.maxDepth < depth)) = true
    · rw [if_pos hleft, List.filter_cons_of_neg (by simp [hshown, hleft])]
      simp
    · have hlevel' : outline.levelUnder draft.levels node = outline.level tree id := by
        have hkept : outline.isHidden tree id = false := by
          rw [isHidden_of_get? hnode]
          exact (Bool.or_eq_false_iff.mp (Bool.eq_false_iff.mpr hleft)).1
        rw [List.countP_cons_of_pos (by simp [hkept])] at hlevel
        exact Nat.succ.inj hlevel
      rw [if_neg hleft, List.filter_cons_of_pos (by simp [hshown, hleft])]
      simp [row?, hnode, hlevel']

/-- The run: a draft that tells the nodes met so far tells all of them in the end. -/
theorem tells_foldl (h : tree.Linked) {met : List Nat} {visits : List (Nat × Nat)} {draft : Draft}
    (hdraft : draft.Tells outline tree met)
    (horder : Forest.TopDown tree (met ++ visits.map Prod.fst))
    (hdepth : ∀ visit ∈ visits, visit.2 = (tree.ancestors visit.1).length) :
    (visits.foldl (outline.visit tree) draft).Tells outline tree (met ++ visits.map Prod.fst) := by
  induction visits generalizing met draft with
  | nil => simpa using hdraft
  | cons visit visits ih =>
    obtain ⟨id, depth⟩ := visit
    have hnext : Forest.TopDown tree (met ++ [id] ++ visits.map Prod.fst) := by
      simpa using horder
    have hfront := hnext.of_append
    have hfresh : id ∉ met := by
      intro hmem
      exact (List.nodup_append.mp hfront.nodup).2.2 id hmem id (List.mem_singleton_self id) rfl
    have hmet : ∀ {above}, tree.Above above id → above ∈ met := by
      intro above habove
      rcases List.mem_append.mp (hfront.above_mem (by simp) habove) with hmem | hself
      · exact hmem
      · obtain rfl := List.mem_singleton.mp hself
        exact absurd (habove.lt h) (Nat.lt_irrefl _)
    have hstep := tells_visit h hdraft (hfront.lt_size id (by simp)) hmet hfresh
      (hdepth (id, depth) List.mem_cons_self)
    have hrest := ih hstep hnext fun each heach => hdepth each (List.mem_cons_of_mem _ heach)
    rw [List.foldl_cons, List.map_cons, List.append_cons]
    exact hrest

/-- **The outline shows its rows**: the nodes that are neither hidden nor too deep, in
document order, each at the level that the nodes above it make. -/
theorem shown_eq (h : tree.Linked) (outline : Outline) :
    outline.shown tree = (outline.rows tree).filterMap (outline.row? tree) := by
  have hblank : Draft.Tells outline tree [] ⟨Array.replicate tree.size 0, #[]⟩ :=
    ⟨Array.size_replicate, fun id hid => absurd hid List.not_mem_nil, rfl⟩
  have hwalk := Tree.walk_eq_visits h h.root_lt_size
  have hdepth : ∀ visit ∈ tree.walk Tree.root, visit.2 = (tree.ancestors visit.1).length := by
    intro visit hvisit
    rw [hwalk] at hvisit
    have hcount := Tree.depth_of_mem_visits h hvisit
    rw [Tree.ancestors_of_parent?_eq_none h.parent?_root] at hcount
    simpa using hcount
  have horder : Forest.TopDown tree ([] ++ (tree.walk Tree.root).map Prod.fst) := by
    rw [List.nil_append, Tree.map_fst_walk_root h]
    exact Forest.topDown_preorder h
  have hall := (tells_foldl h hblank horder hdepth).lines_eq
  rw [List.nil_append, Tree.map_fst_walk_root h] at hall
  exact hall

/-- The entries of an outline, each with its level. -/
def entries (outline : Outline) (tree : Tree) : List (Nat × String) :=
  (outline.shown tree).map fun line => (line.1, outline.entry line.1 line.2)

/-- An outline is written from its entries. -/
theorem render_eq (outline : Outline) (tree : Tree) :
    outline.render tree =
      if (outline.entries tree).all fun entry => entry.1 * outline.indent ≤ indentLimit then
        .ok (String.join ((outline.entries tree).map Prod.snd))
      else .error .tooWide := by
  rw [entries, List.all_map, List.map_map]
  rfl

end SyntaxForest.Outline
