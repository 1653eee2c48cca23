import SyntaxForest.Proofs.DocumentOrder

/-! What a walk with a stack of pending nodes reports.  From any node of a tree it comes
to its end, and the visits are those of the recursion: the node itself, then the walks
of its children, one deeper.  So each node at or below the start is visited once, at
a depth that counts the steps up to the start, and what is below a visited node
follows it in one block. -/

namespace SyntaxForest.Tree
variable {tree : Tree}

/-! ## Ways up to the start -/

/-- The way up from a node leads through every node at or above it, and only once. -/
theorem exists_way_up (h : tree.Linked) {start id : Nat} (hid : tree.AtOrAbove start id) :
    ∃ way, id :: tree.ancestors id = way ++ start :: tree.ancestors start ∧ start ∉ way := by
  induction hid with
  | refl => exact ⟨[], rfl, List.not_mem_nil⟩
  | @tail parent id habove hparent ih =>
    obtain ⟨way, hway, hnot⟩ := ih
    refine ⟨id :: way, ?_, ?_⟩
    · rw [ancestors_of_isParent h hparent, hway, List.cons_append]
    · -- the start is at or above the parent, and so has a smaller number
      intro hin
      rcases List.mem_cons.mp hin with rfl | hin
      · have hle := AtOrAbove.le h habove
        have hlt := h.parent_lt hparent
        omega
      · exact hnot hin

/-- The place of the start on the way up is the difference of the two chains of
ancestors. -/
theorem idxOf_way_up (h : tree.Linked) {start id : Nat} (hid : tree.AtOrAbove start id) :
    (id :: tree.ancestors id).idxOf start + (tree.ancestors start).length =
      (tree.ancestors id).length := by
  obtain ⟨way, hway, hnot⟩ := exists_way_up h hid
  have hlength := congrArg List.length hway
  rw [List.length_cons, List.length_append, List.length_cons] at hlength
  rw [hway, List.idxOf_append_of_notMem hnot, List.idxOf_cons_self]
  omega

/-! ## Visits -/

/-- A visit is told by its node: its depth counts the steps up to the start. -/
theorem mem_visits_iff (h : tree.Linked) {start id depth : Nat} :
    (id, depth) ∈ tree.visits start 0 ↔
      tree.AtOrAbove start id ∧ depth = (id :: tree.ancestors id).idxOf start := by
  have hdepth {d : Nat} (hid : tree.AtOrAbove start id) (hvisit : (id, d) ∈ tree.visits start 0) :
      d = (id :: tree.ancestors id).idxOf start := by
    have hchains := depth_of_mem_visits h hvisit
    have hplace := idxOf_way_up h hid
    omega
  constructor
  · intro hvisit
    have hid : tree.AtOrAbove start id :=
      (mem_preorder_iff h).mp (List.mem_map_of_mem hvisit)
    exact ⟨hid, hdepth hid hvisit⟩
  · rintro ⟨hid, rfl⟩
    obtain ⟨⟨_, d⟩, hvisit, rfl⟩ := List.mem_map.mp ((mem_preorder_iff h).mpr hid)
    rw [← hdepth hid hvisit]
    exact hvisit

/-- The same visits from a start that lies deeper. -/
theorem visits_deeper (h : tree.Linked) (id depth more : Nat) :
    tree.visits id (depth + more) =
      (tree.visits id depth).map fun visit => (visit.1, visit.2 + more) := by
  induction id using h.induction_below generalizing depth with
  | step id ih =>
    rw [visits_eq h, visits_eq h id depth, List.map_cons, List.map_flatMap]
    refine congrArg ((id, depth + more) :: ·) (List.flatMap_congr fun child hchild => ?_)
    rw [Nat.add_right_comm]
    exact ih child hchild (depth + 1)

/-- The visits after the first one are those of the nodes below. -/
theorem mem_visits_below_iff (h : tree.Linked) {id depth other : Nat} :
    other ∈ ((tree.children id).flatMap fun child => tree.visits child (depth + 1)).map Prod.fst ↔
      tree.Above id other := by
  simp only [List.map_flatMap, map_fst_visits h]
  exact mem_flatMap_preorder_iff h

/-! ## The walk -/

theorem walk_eq_cons (h : tree.Linked) {start : Nat} (hstart : start < tree.size) :
    tree.walk start = (start, 0) :: (tree.children start).flatMap fun child =>
      (tree.walk child).map fun visit => (visit.1, visit.2 + 1) := by
  rw [walk_eq_visits h hstart, visits_eq h]
  refine congrArg ((start, 0) :: ·) (List.flatMap_congr fun child hchild => ?_)
  have hlt : child < tree.size := lt_size_of_parent? ((mem_children_iff h).mp hchild)
  rw [walk_eq_visits h hlt, visits_deeper h child 0 1]

/-- Visits in document order below a start: they are to the start and to the nodes
below it, each at the depth that is the number of steps up from the node to the start;
no node is visited twice, or after one that is below it; and what is below a visited
node is visited right after it, without a break. -/
structure InDocumentOrder (tree : Tree) (start : Nat) (visits : List (Nat × Nat)) : Prop where
  mem_iff : ∀ id depth, (id, depth) ∈ visits ↔
    tree.AtOrAbove start id ∧ depth = (id :: tree.ancestors id).idxOf start
  nodup : (visits.map Prod.fst).Nodup
  above_first : (visits.map Prod.fst).Pairwise fun earlier later => ¬ tree.Above later earlier
  block : ∀ visit ∈ visits, ∃ front below back, visits = front ++ visit :: below ++ back ∧
    ∀ id, id ∈ below.map Prod.fst ↔ tree.Above visit.1 id

theorem inDocumentOrder_visits (h : tree.Linked) (start : Nat) :
    tree.InDocumentOrder start (tree.visits start 0) where
  mem_iff := fun id depth => mem_visits_iff h
  nodup := preorder_nodup h start
  above_first := by
    refine (preorder_pairwise h start).imp fun {earlier later} hnot habove => hnot ?_
    exact Relation.TransGen.to_reflTransGen habove
  block := by
    rintro ⟨id, depth⟩ hvisit
    obtain ⟨front, back, hsplit⟩ := visits_isInfix h hvisit
    rw [visits_eq h id depth] at hsplit
    exact ⟨front, _, back, hsplit.symm, fun other => mem_visits_below_iff h⟩

/-- **A walk comes to its end and is document order**, in every tree that steps give and
from every node of it.  It has one outcome, which is that of the recursion: the start at
depth 0, then the walks of its children in order, one deeper.  It visits the start
and what is below it, each once and before all that is below it, at the depth that
counts the parents up to the start, and all below a visited node comes in one block
right after it. -/
theorem walk_in_document_order (h : tree.Reachable) {start : Nat} (hstart : start < tree.size) :
    (∀ visits, tree.WalkEnds [(start, 0)] visits ↔ visits = tree.walk start) ∧
    tree.walk start = tree.visits start 0 ∧
    tree.walk start = (start, 0) :: ((tree.children start).flatMap fun child =>
      (tree.walk child).map fun visit => (visit.1, visit.2 + 1)) ∧
    tree.InDocumentOrder start (tree.walk start) := by
  have hlinked := h.linked
  have hwalk := walk_eq_visits hlinked hstart
  have hends : tree.WalkEnds [(start, 0)] (tree.walk start) := by
    rw [hwalk]
    exact walkEnds_visits hlinked start
  refine ⟨?_, hwalk, walk_eq_cons hlinked hstart, ?_⟩
  · intro visits
    constructor
    · intro hvisits
      exact hvisits.unique hends
    · rintro rfl
      exact hends
  · rw [hwalk]
    exact inDocumentOrder_visits hlinked start

/-- Two methods under a unit, the first with a block of two statements. -/
def nestedMethods : List Step :=
  [.push .methodDeclaration 0, .push .block 1, .push .ifStatement 2, .push .methodDeclaration 0,
   .push .returnStatement 2]

/-- The walk below the first method leaves out the second, which came before its last
statement. -/
theorem walk_in_document_order_nestedMethods :
    let tree := (singleton .compilationUnit).run nestedMethods
    tree.WalkEnds [(1, 0)] [(1, 0), (2, 1), (3, 2), (5, 2)] ∧
    tree.InDocumentOrder 1 [(1, 0), (2, 1), (3, 2), (5, 2)] := by
  intro tree
  have hwalk : tree.walk 1 = [(1, 0), (2, 1), (3, 2), (5, 2)] := by decide
  obtain ⟨hends, _, _, horder⟩ := walk_in_document_order
    ((Reachable.singleton .compilationUnit).run nestedMethods) (show 1 < tree.size by decide)
  exact ⟨(hends _).mpr hwalk.symm, hwalk ▸ horder⟩

end SyntaxForest.Tree
