import Mathlib.Logic.Relation
import SyntaxForest.Tree

/-! The links of a tree.  A tree that was grown node by node keeps two views of
the same relation, the parent of each node and the children of each node, and
the numbers of its nodes grow away from the root.  `Linked` says so, every step
keeps it, and from it the chain of ancestors is the chain of parents. -/

namespace SyntaxForest.Tree
variable {tree : Tree}

/-- The trees that steps give: one node to begin with, then any number of steps
that were not refused. -/
inductive Reachable : Tree → Prop
  | singleton (category : Category) : Reachable (singleton category)
  | push {tree grown : Tree} {category : Category} {parent id : Nat} :
    Reachable tree → tree.push category parent = .ok (grown, id) → Reachable grown
  | setField {tree changed : Tree} {id : Nat} {field : Field} {value : FieldValue} :
    Reachable tree → tree.setField id field value = .ok changed → Reachable changed
  | setSpan {tree changed : Tree} {id : Nat} {span : LineSpan} :
    Reachable tree → tree.setSpan id span = .ok changed → Reachable changed

/-- A step on a tree. -/
inductive Step where
  | push (category : Category) (parent : Nat)
  | setField (id : Nat) (field : Field) (value : FieldValue)
  | setSpan (id : Nat) (span : LineSpan)
deriving DecidableEq, Repr

/-- The tree after a step, unless the step is refused. -/
def step (tree : Tree) : Step → Except Fault Tree
  | .push category parent => (tree.push category parent).map Prod.fst
  | .setField id field value => tree.setField id field value
  | .setSpan id span => tree.setSpan id span

/-- The tree after any number of steps, those that are refused left out. -/
def run (tree : Tree) : List Step → Tree
  | [] => tree
  | first :: steps =>
    match tree.step first with
    | .ok changed => changed.run steps
    | .error _ => tree.run steps

theorem Reachable.step {first : Step} {changed : Tree} (h : tree.Reachable)
    (hstep : tree.step first = .ok changed) : changed.Reachable := by
  cases first with
  | push category parent =>
    cases hpush : tree.push category parent with
    | error fault => simp [Tree.step, hpush, Except.map] at hstep
    | ok grown =>
      simp only [Tree.step, hpush, Except.map, Except.ok.injEq] at hstep
      exact h.push (hpush.trans (by rw [← hstep]))
  | setField id field value => exact h.setField hstep
  | setSpan id span => exact h.setSpan hstep

/-- Whatever a run does, it leaves a tree that steps can build. -/
theorem Reachable.run (h : tree.Reachable) (steps : List Step) : (tree.run steps).Reachable := by
  induction steps generalizing tree with
  | nil => exact h
  | cons first steps ih =>
    rw [Tree.run]
    split
    · exact ih (h.step ‹_›)
    · exact ih h

/-- Parents and children tell the same tree, and numbers grow away from the
root, which alone has no parent. -/
structure Linked (tree : Tree) : Prop where
  root_lt_size : root < tree.size
  parent?_root : tree.parent? root = none
  exists_parent : ∀ {id}, id < tree.size → id ≠ root → ∃ parent, tree.parent? id = some parent
  parent_lt : ∀ {id parent}, tree.parent? id = some parent → parent < id
  children_eq : ∀ id, tree.children id =
    (List.range tree.size).filter fun child => tree.parent? child = some id

/-! ## Lookups after a step -/

theorem get?_eq_none_iff {id : Nat} : tree.get? id = none ↔ tree.size ≤ id :=
  Array.getElem?_eq_none_iff

theorem exists_get? {id : Nat} (h : id < tree.size) : ∃ node, tree.get? id = some node :=
  ⟨_, Array.getElem?_eq_getElem h⟩

theorem lt_size_of_get? {id : Nat} {node : Node} (h : tree.get? id = some node) :
    id < tree.size :=
  (Array.getElem?_eq_some_iff.mp h).1

/-- Only nodes of the tree have parents. -/
theorem lt_size_of_parent? {id parent : Nat} (h : tree.parent? id = some parent) :
    id < tree.size := by
  obtain ⟨node, hnode, _⟩ := Option.bind_eq_some_iff.mp h
  exact lt_size_of_get? hnode

/-- The root alone has no parent. -/
theorem parent?_eq_none_iff (h : tree.Linked) {id : Nat} (hid : id < tree.size) :
    tree.parent? id = none ↔ id = root := by
  constructor
  · intro hnone
    refine Decidable.byContradiction fun hne => ?_
    obtain ⟨parent, hp⟩ := h.exists_parent hid hne
    rw [hnone] at hp
    cases hp
  · rintro rfl
    exact h.parent?_root

theorem children_eq_getD (tree : Tree) (id : Nat) :
    tree.children id = ((tree.get? id).map Node.children).getD [] := by
  unfold children
  cases tree.get? id <;> rfl

theorem lt_size_of_mem_children {id child : Nat} (h : child ∈ tree.children id) :
    id < tree.size := by
  rw [children_eq_getD] at h
  cases hget : tree.get? id with
  | none => simp [hget] at h
  | some node => exact lt_size_of_get? hget

theorem parent?_of_get? {id : Nat} {node : Node} (h : tree.get? id = some node) :
    tree.parent? id = node.parent := by
  simp [parent?, h]

theorem children_of_get? {id : Nat} {node : Node} (h : tree.get? id = some node) :
    tree.children id = node.children := by
  simp [children_eq_getD, h]

@[simp] theorem size_add (parent : Nat) (node : Node) :
    (tree.add parent node).size = tree.size + 1 := by
  simp [add, size]

/-- The new node comes last, and of the others only its parent changes. -/
theorem get?_add {parent : Nat} (hp : parent < tree.size) (node : Node) (id : Nat) :
    (tree.add parent node).get? id =
      if id = tree.size then some node
      else (tree.get? id).map fun each =>
        if id = parent then { each with children := each.children ++ [tree.size] } else each := by
  have hne : parent ≠ tree.nodes.size := Nat.ne_of_lt hp
  simp only [add, get?, size, Array.getElem?_modify, Array.getElem?_push]
  by_cases hid : id = tree.nodes.size
  · simp [hid, hne]
  · by_cases hpid : parent = id
    · subst hpid
      simp [hid]
    · simp [hid, hpid, Ne.symm hpid]

theorem parent?_add {parent : Nat} (hp : parent < tree.size) (node : Node) (id : Nat) :
    (tree.add parent node).parent? id =
      if id = tree.size then node.parent else tree.parent? id := by
  unfold parent?
  rw [get?_add hp]
  split
  · rfl
  · cases tree.get? id with
    | none => rfl
    | some each => by_cases hid : id = parent <;> simp [hid]

theorem children_add {parent : Nat} (hp : parent < tree.size) (node : Node) (id : Nat) :
    (tree.add parent node).children id =
      if id = tree.size then node.children
      else if id = parent then tree.children id ++ [tree.size] else tree.children id := by
  rw [children_eq_getD, children_eq_getD, get?_add hp]
  split
  · rfl
  · cases hget : tree.get? id with
    | none =>
      have hid : id ≠ parent := by
        intro he
        have := get?_eq_none_iff.mp hget
        omega
      simp [hid]
    | some each => by_cases hid : id = parent <;> simp [hid]

/-! ## Every step keeps the links -/

theorem linked_root {node : Node} (hparent : node.parent = none) (hchildren : node.children = []) :
    Linked ⟨#[node]⟩ where
  root_lt_size := Nat.one_pos
  parent?_root := by simp [parent?, get?, root, hparent]
  exists_parent := by
    intro id hid hne
    exact absurd (Nat.lt_one_iff.mp hid) hne
  parent_lt := by
    intro id parent h
    obtain rfl : id = 0 := Nat.lt_one_iff.mp (lt_size_of_parent? h)
    simp [parent?, get?, hparent] at h
  children_eq := by
    intro id
    by_cases hid : id = 0
    · simp [hid, children, get?, parent?, size, hparent, hchildren]
    · simp [hid, children, get?, parent?, size, hparent]

/-- A new node below a node of the tree keeps the links. -/
theorem Linked.add (h : tree.Linked) {parent : Nat} (hp : parent < tree.size) {node : Node}
    (hparent : node.parent = some parent) (hchildren : node.children = []) :
    (tree.add parent node).Linked where
  root_lt_size := by
    rw [size_add]
    exact Nat.lt_succ_of_lt h.root_lt_size
  parent?_root := by
    have hne : root ≠ tree.size := Nat.ne_of_lt h.root_lt_size
    rw [parent?_add hp, if_neg hne]
    exact h.parent?_root
  exists_parent := by
    intro id hid hne
    rw [parent?_add hp]
    split
    · exact ⟨parent, hparent⟩
    · rw [size_add] at hid
      exact h.exists_parent (by omega) hne
  parent_lt := by
    intro id above habove
    rw [parent?_add hp] at habove
    split at habove
    · rw [hparent] at habove
      obtain rfl := Option.some.inj habove
      omega
    · exact h.parent_lt habove
  children_eq := by
    intro id
    have hold : ((List.range tree.size).filter fun child =>
        (tree.add parent node).parent? child = some id) = tree.children id := by
      rw [h.children_eq]
      refine List.filter_congr fun child hchild => ?_
      rw [parent?_add hp, if_neg (Nat.ne_of_lt (List.mem_range.mp hchild))]
    have hnew : (tree.add parent node).parent? tree.size = some parent := by
      rw [parent?_add hp, if_pos rfl, hparent]
    rw [size_add, List.range_succ, List.filter_append, hold, children_add hp]
    by_cases hid : id = tree.size
    · -- nothing is below the new node yet
      have hnone : tree.children tree.size = [] := by
        rw [children_eq_getD, get?_eq_none_iff.mpr (Nat.le_refl _)]
        rfl
      simp [hid, hchildren, hnew, Nat.ne_of_lt hp, hnone]
    · by_cases hpid : id = parent
      · simp [hpid, hnew, Nat.ne_of_lt hp]
      · simp [hid, hpid, hnew, Ne.symm hpid]

/-- The links are those of the parents and children alone. -/
theorem Linked.congr {other : Tree} (h : tree.Linked) (hsize : other.size = tree.size)
    (hparent : ∀ id, other.parent? id = tree.parent? id)
    (hchildren : ∀ id, other.children id = tree.children id) : other.Linked where
  root_lt_size := hsize ▸ h.root_lt_size
  parent?_root := by rw [hparent]; exact h.parent?_root
  exists_parent := by
    intro id hid hne
    rw [hparent]
    exact h.exists_parent (hsize ▸ hid) hne
  parent_lt := by
    intro id parent hp
    exact h.parent_lt (hparent id ▸ hp)
  children_eq := by
    intro id
    simp only [hchildren, hsize, hparent]
    exact h.children_eq id

theorem lt_size_of_modify {changed : Tree} {id : Nat} {change : Node → Node}
    (hstep : tree.modify id change = .ok changed) : id < tree.size := by
  unfold Tree.modify at hstep
  split at hstep
  · assumption
  · cases hstep

/-- A change reaches one node of the tree and no other. -/
theorem get?_of_modify {changed : Tree} {id : Nat} {change : Node → Node}
    (hstep : tree.modify id change = .ok changed) (each : Nat) :
    changed.get? each = if id = each then (tree.get? each).map change else tree.get? each := by
  unfold Tree.modify at hstep
  split at hstep
  · cases hstep
    exact Array.getElem?_modify
  · cases hstep

/-- A change of a node that leaves its place alone keeps the links. -/
theorem Linked.modify {changed : Tree} {id : Nat} {change : Node → Node} (h : tree.Linked)
    (hparent : ∀ node, (change node).parent = node.parent)
    (hchildren : ∀ node, (change node).children = node.children)
    (hstep : tree.modify id change = .ok changed) : changed.Linked := by
  have hget := get?_of_modify hstep
  have hsize : changed.size = tree.size := by
    unfold Tree.modify at hstep
    split at hstep
    · cases hstep
      simp [size]
    · cases hstep
  refine h.congr hsize ?_ ?_
  · intro each
    unfold parent?
    rw [hget]
    split
    · cases tree.get? each with
      | none => rfl
      | some node => exact hparent node
    · rfl
  · intro each
    rw [children_eq_getD, children_eq_getD, hget]
    split
    · cases tree.get? each with
      | none => rfl
      | some node => exact hchildren node
    · rfl

/-- Adding a node keeps every child linked to its parent. -/
theorem Linked.push {grown : Tree} {category : Category} {parent id : Nat} (h : tree.Linked)
    (hstep : tree.push category parent = .ok (grown, id)) : grown.Linked := by
  unfold Tree.push at hstep
  split at hstep
  · cases hstep
    exact h.add ‹_› rfl rfl
  · cases hstep

/-- **Every tree that steps give is linked.** -/
theorem Reachable.linked (h : tree.Reachable) : tree.Linked := by
  induction h with
  | singleton category => exact linked_root rfl rfl
  | push _ hstep ih => exact ih.push hstep
  | setField _ hstep ih =>
    unfold Tree.setField at hstep
    exact ih.modify (by simp) (by simp) hstep
  | setSpan _ hstep ih =>
    unfold Tree.setSpan at hstep
    exact ih.modify (by simp) (by simp) hstep

/-! ## Nodes above others -/

/-- `above` is the parent of `id`. -/
def IsParent (tree : Tree) (above id : Nat) : Prop :=
  tree.parent? id = some above

/-- A chain of parents leads from `id` up to `above`, in one step or more. -/
def Above (tree : Tree) : Nat → Nat → Prop :=
  Relation.TransGen tree.IsParent

/-- `above` is the node `id` or stands above it. -/
def AtOrAbove (tree : Tree) : Nat → Nat → Prop :=
  Relation.ReflTransGen tree.IsParent

/-- The children listed at a node are the nodes that name it as their parent. -/
theorem mem_children_iff (h : tree.Linked) {id child : Nat} :
    child ∈ tree.children id ↔ tree.IsParent id child := by
  rw [h.children_eq, List.mem_filter, List.mem_range, decide_eq_true_iff]
  exact ⟨fun hc => hc.2, fun hc => ⟨lt_size_of_parent? hc, hc⟩⟩

theorem lt_of_mem_children (h : tree.Linked) {id child : Nat} (hc : child ∈ tree.children id) :
    id < child :=
  h.parent_lt ((mem_children_iff h).mp hc)

theorem children_nodup (h : tree.Linked) (id : Nat) : (tree.children id).Nodup := by
  rw [h.children_eq]
  exact List.nodup_range.filter _

/-- Above a node are its parent and what is above that. -/
theorem above_iff_of_isParent {a parent id : Nat} (hp : tree.IsParent parent id) :
    tree.Above a id ↔ tree.AtOrAbove a parent := by
  rw [Above, Relation.TransGen.tail'_iff]
  constructor
  · rintro ⟨p, hap, hpid⟩
    obtain rfl : p = parent := Option.some.inj (hpid.symm.trans hp)
    exact hap
  · intro hap
    exact ⟨parent, hap, hp⟩

/-- A node has a smaller number than those below it. -/
theorem Above.lt (h : tree.Linked) {a b : Nat} (hab : tree.Above a b) : a < b := by
  induction hab with
  | single hp => exact h.parent_lt hp
  | tail _ hp ih => exact Nat.lt_trans ih (h.parent_lt hp)

theorem Above.lt_size {a b : Nat} (hab : tree.Above a b) : b < tree.size := by
  cases hab with
  | single hp => exact lt_size_of_parent? hp
  | tail _ hp => exact lt_size_of_parent? hp

theorem atOrAbove_iff {a b : Nat} : tree.AtOrAbove a b ↔ b = a ∨ tree.Above a b :=
  Relation.reflTransGen_iff_eq_or_transGen

theorem AtOrAbove.le (h : tree.Linked) {a b : Nat} (hab : tree.AtOrAbove a b) : a ≤ b := by
  rcases atOrAbove_iff.mp hab with rfl | hab
  · exact Nat.le_refl _
  · exact Nat.le_of_lt (hab.lt h)

/-- Of two nodes on the way up from a third, one is at or above the other. -/
theorem AtOrAbove.total {a b id : Nat} (ha : tree.AtOrAbove a id) (hb : tree.AtOrAbove b id) :
    tree.AtOrAbove a b ∨ tree.AtOrAbove b a := by
  have hunique : Relator.RightUnique (Function.swap tree.IsParent) :=
    fun _ _ _ hp hq => Option.some.inj (hp.symm.trans hq)
  rcases Relation.ReflTransGen.total_of_right_unique hunique ha.swap hb.swap with hba | hab
  · exact Or.inr hba.swap
  · exact Or.inl hab.swap

/-- Nodes with one parent stand above different nodes. -/
theorem eq_of_common_below (h : tree.Linked) {parent c d id : Nat} (hc : tree.IsParent parent c)
    (hd : tree.IsParent parent d) (hcid : tree.AtOrAbove c id) (hdid : tree.AtOrAbove d id) :
    c = d := by
  have key {x y : Nat} (hx : tree.IsParent parent x) (hy : tree.IsParent parent y)
      (hxy : tree.AtOrAbove x y) : x = y := by
    rcases atOrAbove_iff.mp hxy with he | habove
    · exact he.symm
    · have hle := ((above_iff_of_isParent hy).mp habove).le h
      have hlt := h.parent_lt hx
      omega
  rcases hcid.total hdid with hcd | hdc
  · exact key hc hd hcd
  · exact (key hd hc hdc).symm

/-- Every other node is below the root. -/
theorem atOrAbove_root (h : tree.Linked) {id : Nat} (hid : id < tree.size) :
    tree.AtOrAbove root id := by
  induction id using Nat.strongRecOn with
  | ind id ih =>
    by_cases hroot : id = root
    · rw [hroot]
      exact Relation.ReflTransGen.refl
    · obtain ⟨parent, hp⟩ := h.exists_parent hid hroot
      have hlt := h.parent_lt hp
      exact (ih parent hlt (Nat.lt_trans hlt hid)).tail hp

/-! ## The chain of ancestors -/

/-- The way up from a node goes through its parent. -/
theorem ancestors_of_isParent (h : tree.Linked) {parent id : Nat} (hp : tree.IsParent parent id) :
    tree.ancestors id = parent :: tree.ancestors parent := by
  rw [ancestors, show tree.parent? id = some parent from hp]
  simp [h.parent_lt hp]

theorem ancestors_of_parent?_eq_none {id : Nat} (hp : tree.parent? id = none) :
    tree.ancestors id = [] := by
  rw [ancestors, hp]

/-- The ancestors of a node are the nodes above it. -/
theorem mem_ancestors_iff (h : tree.Linked) {a id : Nat} :
    a ∈ tree.ancestors id ↔ tree.Above a id := by
  induction id using Nat.strongRecOn with
  | ind id ih =>
    cases hp : tree.parent? id with
    | none =>
      rw [ancestors_of_parent?_eq_none hp, Above, Relation.TransGen.tail'_iff]
      simp [IsParent, hp]
    | some parent =>
      rw [ancestors_of_isParent h hp, above_iff_of_isParent hp, List.mem_cons,
        ih parent (h.parent_lt hp), atOrAbove_iff, eq_comm]

/-- Ancestors are told nearest first: each is below all that follow. -/
theorem ancestors_pairwise (h : tree.Linked) (id : Nat) :
    (tree.ancestors id).Pairwise fun near far => tree.Above far near := by
  induction id using Nat.strongRecOn with
  | ind id ih =>
    cases hp : tree.parent? id with
    | none => simp [ancestors_of_parent?_eq_none hp]
    | some parent =>
      rw [ancestors_of_isParent h hp]
      refine List.pairwise_cons.mpr ⟨?_, ih parent (h.parent_lt hp)⟩
      intro far hfar
      exact (mem_ancestors_iff h).mp hfar

end SyntaxForest.Tree
