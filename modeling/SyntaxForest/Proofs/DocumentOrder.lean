import Mathlib.Data.List.Perm.Subperm
import SyntaxForest.Proofs.TreeLinks
import SyntaxForest.Tree

/-! Document order by recursion: a node, then its children in order, each with
all that is below it.  The walk with a stack of pending nodes reads off exactly
this order.  In it a node comes after every node above it, and what is at or
below a node is one block that begins with the node. -/

namespace SyntaxForest.Tree
variable {tree : Tree}

/-- The nodes at or below `id` in document order, each with its depth, `id` at
the given one.  Children have greater numbers than their parent, so this ends. -/
def visits (tree : Tree) (id depth : Nat) : List (Nat × Nat) :=
  (id, depth) :: (tree.children id).attach.flatMap fun child =>
    if _h : id < child.1 then tree.visits child.1 (depth + 1) else []
termination_by tree.size - id
decreasing_by
  have := lt_size_of_mem_children child.2
  omega

/-- The nodes at or below `id` in document order. -/
def preorder (tree : Tree) (id : Nat) : List Nat :=
  (tree.visits id 0).map Prod.fst

/-- What holds of a node once it holds of its children holds of every node. -/
theorem Linked.induction_below (h : tree.Linked) {motive : Nat → Prop}
    (step : ∀ id, (∀ child ∈ tree.children id, motive child) → motive id) (id : Nat) :
    motive id := by
  induction hn : tree.size - id using Nat.strongRecOn generalizing id with
  | ind n ih =>
    refine step id fun child hc => ih (tree.size - child) ?_ child rfl
    have hlt := lt_of_mem_children h hc
    have hsize := lt_size_of_mem_children hc
    omega

theorem visits_eq (h : tree.Linked) (id depth : Nat) :
    tree.visits id depth =
      (id, depth) :: (tree.children id).flatMap fun child => tree.visits child (depth + 1) := by
  rw [visits]
  have hguard : (tree.children id).attach.flatMap (fun child =>
        if _h : id < child.1 then tree.visits child.1 (depth + 1) else []) =
      (tree.children id).attach.flatMap fun child => tree.visits child.1 (depth + 1) := by
    refine List.flatMap_congr fun child _ => ?_
    rw [dif_pos (lt_of_mem_children h child.2)]
  rw [hguard, ← List.flatMap_map Subtype.val fun child => tree.visits child (depth + 1),
    List.attach_map_subtype_val]

theorem map_fst_visits (h : tree.Linked) (id depth : Nat) :
    (tree.visits id depth).map Prod.fst = tree.preorder id := by
  induction id using h.induction_below generalizing depth with
  | step id ih =>
    rw [preorder, visits_eq h, visits_eq h, List.map_cons, List.map_cons, List.map_flatMap,
      List.map_flatMap]
    refine congrArg (id :: ·) (List.flatMap_congr fun child hc => ?_)
    rw [ih child hc, ih child hc]

theorem preorder_eq (h : tree.Linked) (id : Nat) :
    tree.preorder id = id :: (tree.children id).flatMap tree.preorder := by
  rw [preorder, visits_eq h, List.map_cons, List.map_flatMap]
  simp only [map_fst_visits h]

/-- Depths count the steps down: they differ as the lengths of the chains of ancestors
do. -/
theorem depth_of_mem_visits (h : tree.Linked) {id depth x d : Nat}
    (hx : (x, d) ∈ tree.visits id depth) :
    d + (tree.ancestors id).length = depth + (tree.ancestors x).length := by
  induction id using h.induction_below generalizing depth with
  | step id ih =>
    rw [visits_eq h, List.mem_cons] at hx
    rcases hx with heq | hbelow
    · obtain ⟨rfl, rfl⟩ := Prod.mk.inj heq
      rfl
    · obtain ⟨child, hc, hchild⟩ := List.mem_flatMap.mp hbelow
      have hdepth := ih child hc hchild
      rw [ancestors_of_isParent h ((mem_children_iff h).mp hc), List.length_cons] at hdepth
      omega

/-- Document order tells exactly what is at or below a node. -/
theorem mem_preorder_iff (h : tree.Linked) {id x : Nat} :
    x ∈ tree.preorder id ↔ tree.AtOrAbove id x := by
  induction id using h.induction_below with
  | step id ih =>
    rw [preorder_eq h, List.mem_cons, List.mem_flatMap, AtOrAbove,
      Relation.ReflTransGen.cases_head_iff, eq_comm]
    refine or_congr_right (exists_congr fun child => ?_)
    rw [mem_children_iff h]
    refine and_congr_right fun hc => ?_
    exact ih child ((mem_children_iff h).mpr hc)

/-- What follows a node in its own document order is below it. -/
theorem mem_flatMap_preorder_iff (h : tree.Linked) {id x : Nat} :
    x ∈ (tree.children id).flatMap tree.preorder ↔ tree.Above id x := by
  rw [Above, Relation.TransGen.head'_iff, List.mem_flatMap]
  refine exists_congr fun child => ?_
  rw [mem_preorder_iff h, mem_children_iff h, AtOrAbove]

/-- A node does not come before one that it is at or below. -/
theorem preorder_pairwise (h : tree.Linked) (id : Nat) :
    (tree.preorder id).Pairwise fun earlier later => ¬ tree.AtOrAbove later earlier := by
  induction id using h.induction_below with
  | step id ih =>
    rw [preorder_eq h]
    refine List.pairwise_cons.mpr ⟨?_, List.pairwise_flatMap.mpr ⟨ih, ?_⟩⟩
    · intro later hlater habove
      have hlt := ((mem_flatMap_preorder_iff h).mp hlater).lt h
      have hle := habove.le h
      omega
    · -- two children of one node stand above different nodes
      refine (children_nodup h id).imp_of_mem fun {c d} hc hd hne => ?_
      intro x hx y hy habove
      refine hne (eq_of_common_below h ((mem_children_iff h).mp hc) ((mem_children_iff h).mp hd)
        ((mem_preorder_iff h).mp hx) ?_)
      exact ((mem_preorder_iff h).mp hy).trans habove

theorem preorder_nodup (h : tree.Linked) (id : Nat) : (tree.preorder id).Nodup := by
  refine (preorder_pairwise h id).imp fun {earlier later} hnot he => hnot ?_
  rw [he]
  exact Relation.ReflTransGen.refl

theorem lt_size_of_mem_preorder (h : tree.Linked) {id x : Nat} (hid : id < tree.size)
    (hx : x ∈ tree.preorder id) : x < tree.size := by
  rcases atOrAbove_iff.mp ((mem_preorder_iff h).mp hx) with rfl | habove
  · exact hid
  · exact habove.lt_size

theorem mem_preorder_root_iff (h : tree.Linked) {x : Nat} :
    x ∈ tree.preorder root ↔ x < tree.size :=
  ⟨lt_size_of_mem_preorder h h.root_lt_size,
    fun hx => (mem_preorder_iff h).mpr (atOrAbove_root h hx)⟩

theorem length_preorder_le (h : tree.Linked) {id : Nat} (hid : id < tree.size) :
    (tree.preorder id).length ≤ tree.size := by
  have hsub : tree.preorder id ⊆ List.range tree.size :=
    fun _ hx => List.mem_range.mpr (lt_size_of_mem_preorder h hid hx)
  have hle := ((preorder_nodup h id).subperm hsub).length_le
  rwa [List.length_range] at hle

/-! ## The walk with a stack -/

theorem nextVisit?_cons (tree : Tree) (id depth : Nat) (pending : List (Nat × Nat)) :
    tree.nextVisit? ((id, depth) :: pending) =
      some ((id, depth), (tree.children id).map (·, depth + 1) ++ pending) := by
  rw [nextVisit?, List.foldl_reverse, List.foldr_cons_eq_append]

/-- The walk from a stack of pending nodes comes to its end, with these visits on the
way. -/
inductive WalkEnds (tree : Tree) : List (Nat × Nat) → List (Nat × Nat) → Prop
  | done {stack : List (Nat × Nat)} : tree.nextVisit? stack = none → WalkEnds tree stack []
  | round {stack pending visits : List (Nat × Nat)} {visit : Nat × Nat} :
    tree.nextVisit? stack = some (visit, pending) → WalkEnds tree pending visits →
      WalkEnds tree stack (visit :: visits)

theorem WalkEnds.unique {stack visits others : List (Nat × Nat)}
    (h : tree.WalkEnds stack visits) (hother : tree.WalkEnds stack others) : visits = others := by
  induction h generalizing others with
  | done hnone =>
    cases hother with
    | done => rfl
    | round hsome => simp [hnone] at hsome
  | round hsome _ ih =>
    cases hother with
    | done hnone => simp [hnone] at hsome
    | round hsome' hrest =>
      obtain ⟨rfl, rfl⟩ := Prod.mk.inj (Option.some.inj (hsome.symm.trans hsome'))
      rw [ih hrest]

/-- Fuel for all visits is enough. -/
theorem WalkEnds.walkFrom_eq {stack visits : List (Nat × Nat)} (h : tree.WalkEnds stack visits)
    {fuel : Nat} (hfuel : visits.length ≤ fuel) : tree.walkFrom fuel stack = visits := by
  induction h generalizing fuel with
  | done hnone =>
    cases fuel with
    | zero => rfl
    | succ fuel => simp only [walkFrom, hnone]
  | round hsome _ ih =>
    cases fuel with
    | zero => cases hfuel
    | succ fuel => simp only [walkFrom, hsome, ih (Nat.le_of_succ_le_succ hfuel)]

/-- From any stack of pending nodes the walk comes to its end, and the visits are the
document orders of these nodes, one after the other. -/
theorem walkEnds_flatMap (h : tree.Linked) (stack : List (Nat × Nat)) :
    tree.WalkEnds stack (stack.flatMap fun visit => tree.visits visit.1 visit.2) := by
  -- every round leaves one visit less to be made
  induction hn : (stack.flatMap fun visit => tree.visits visit.1 visit.2).length
    generalizing stack with
  | zero =>
    cases stack with
    | nil => exact .done rfl
    | cons visit pending =>
      rw [List.flatMap_cons, visits_eq h] at hn
      cases hn
  | succ n ih =>
    cases stack with
    | nil => cases hn
    | cons visit pending =>
      -- the children of the top take its place, and their orders make up its own
      have hflat : (((tree.children visit.1).map (·, visit.2 + 1) ++ pending).flatMap
            fun visit => tree.visits visit.1 visit.2) =
          ((tree.children visit.1).flatMap fun child => tree.visits child (visit.2 + 1)) ++
            pending.flatMap fun visit => tree.visits visit.1 visit.2 := by
        rw [List.flatMap_append, List.flatMap_map]
      rw [List.flatMap_cons, visits_eq h, List.cons_append, ← hflat] at hn ⊢
      exact .round (nextVisit?_cons tree visit.1 visit.2 pending) (ih _ (Nat.succ.inj hn))

theorem walkEnds_visits (h : tree.Linked) (start : Nat) :
    tree.WalkEnds [(start, 0)] (tree.visits start 0) := by
  simpa using walkEnds_flatMap h [(start, 0)]

/-- **The walk is document order**, from any node of the tree. -/
theorem walk_eq_visits (h : tree.Linked) {start : Nat} (hstart : start < tree.size) :
    tree.walk start = tree.visits start 0 := by
  have hlen : (tree.visits start 0).length ≤ tree.size := by
    rw [← List.length_map (f := Prod.fst)]
    exact length_preorder_le h hstart
  exact (walkEnds_visits h start).walkFrom_eq hlen

theorem map_fst_walk_root (h : tree.Linked) :
    (tree.walk root).map Prod.fst = tree.preorder root := by
  rw [walk_eq_visits h h.root_lt_size, preorder]

/-! ## Blocks -/

/-- The visits at and below a visited node are a block. -/
theorem visits_isInfix (h : tree.Linked) {id depth x d : Nat}
    (hx : (x, d) ∈ tree.visits id depth) : tree.visits x d <:+: tree.visits id depth := by
  induction id using h.induction_below generalizing depth with
  | step id ih =>
    rw [visits_eq h, List.mem_cons] at hx
    rcases hx with heq | hbelow
    · obtain ⟨rfl, rfl⟩ := Prod.mk.inj heq
      exact List.infix_refl _
    · obtain ⟨child, hc, hchild⟩ := List.mem_flatMap.mp hbelow
      have hblock : tree.visits child (depth + 1) <:+:
          (tree.children id).flatMap fun child => tree.visits child (depth + 1) := by
        rw [List.flatMap_def]
        exact List.infix_of_mem_flatten (List.mem_map_of_mem hc)
      rw [visits_eq h id depth]
      exact (ih child hc hchild).trans (hblock.trans (List.suffix_cons _ _).isInfix)

/-- What is at or below a node is a block of any document order with the node. -/
theorem preorder_isInfix (h : tree.Linked) {id x : Nat} (hx : tree.AtOrAbove id x) :
    tree.preorder x <:+: tree.preorder id := by
  obtain ⟨⟨_, d⟩, hvisit, rfl⟩ := List.mem_map.mp ((mem_preorder_iff h).mpr hx)
  have hblock := (visits_isInfix h hvisit).map Prod.fst
  rwa [map_fst_visits h, map_fst_visits h] at hblock

end SyntaxForest.Tree
