import Mathlib.Data.List.Induction
import Mathlib.Data.List.Nodup
import Mathlib.Logic.Function.Iterate
import SyntaxForest.Proofs.NameMap
import SyntaxForest.Proofs.TreeLinks

/-! What a run of steps leaves behind.  The place of every node is told by its parent
alone, and its fields by the settings that were not refused: each field once, in
the order in which the fields were first set, with the value that was set last. -/

namespace SyntaxForest.Tree
open NameMap (lookup_cons lookup_setEntry map_fst_setEntry)

/-- The steps of a run that are not refused. -/
def accepted (tree : Tree) : List Step → List Step
  | [] => []
  | first :: steps =>
    match tree.step first with
    | .ok changed => first :: changed.accepted steps
    | .error _ => tree.accepted steps

/-- The field and the value that a step sets on a node. -/
def Step.setting? (id : Nat) : Step → Option (Field × FieldValue)
  | .setField node field value => if node = id then some (field, value) else none
  | .push _ _ | .setSpan _ _ => none

/-- The fields that a run sets on a node, each with its value, in order. -/
def settings (tree : Tree) (steps : List Step) (id : Nat) : List (Field × FieldValue) :=
  (tree.accepted steps).filterMap (Step.setting? id)

/-! ## Fields that are set one after the other -/

namespace Node

/-- Sets fields one after the other. -/
def setEntries (entries settings : List (Field × FieldValue)) : List (Field × FieldValue) :=
  settings.foldl (fun entries setting => setEntry setting.1 setting.2 entries) entries

theorem setEntries_concat (entries settings : List (Field × FieldValue))
    (setting : Field × FieldValue) :
    setEntries entries (settings ++ [setting]) =
      setEntry setting.1 setting.2 (setEntries entries settings) :=
  List.foldl_concat _ _ _ _

theorem nodup_setEntries (settings : List (Field × FieldValue)) :
    ((setEntries [] settings).map Prod.fst).Nodup := by
  induction settings using List.reverseRecOn with
  | nil => exact List.nodup_nil
  | append_singleton settings setting ih =>
    rw [setEntries_concat, map_fst_setEntry]
    split
    · exact ih
    · rename_i hnew
      rw [← List.concat_eq_append]
      exact ih.concat hnew

/-- Fields stand in the order in which they were first set. -/
theorem map_fst_setEntries (settings : List (Field × FieldValue)) :
    (setEntries [] settings).map Prod.fst = (settings.map Prod.fst).eraseDups := by
  induction settings using List.reverseRecOn with
  | nil => rfl
  | append_singleton settings setting ih =>
    rw [setEntries_concat, map_fst_setEntry, ih, List.map_append, List.eraseDups_append]
    by_cases hmem : setting.1 ∈ settings.map Prod.fst
    · simp [List.removeAll, hmem]
    · simp [List.removeAll, hmem, List.eraseDups_cons]

/-- Of several values of one field the last one is kept. -/
theorem lookup_setEntries (settings : List (Field × FieldValue)) (field : Field) :
    (setEntries [] settings).lookup field = settings.reverse.lookup field := by
  induction settings using List.reverseRecOn with
  | nil => rfl
  | append_singleton settings setting ih =>
    rw [setEntries_concat, lookup_setEntry, ih, List.reverse_append, List.reverse_singleton,
      List.singleton_append, lookup_cons]

end Node

/-! ## The fields of a node after a run -/

variable {tree : Tree}

/-- The fields of a node; a node that is not there has none. -/
def fieldsAt (tree : Tree) (id : Nat) : List (Field × FieldValue) :=
  ((tree.get? id).map Node.fields).getD []

theorem fieldsAt_of_get? {id : Nat} {node : Node} (h : tree.get? id = some node) :
    tree.fieldsAt id = node.fields := by
  rw [fieldsAt, h]
  rfl

theorem fieldsAt_add {parent : Nat} (hp : parent < tree.size) {node : Node}
    (hfields : node.fields = []) (id : Nat) :
    (tree.add parent node).fieldsAt id = tree.fieldsAt id := by
  rw [fieldsAt, get?_add hp, fieldsAt]
  by_cases hid : id = tree.size
  · -- the new node has no fields, as it had when it was not there
    rw [if_pos hid, get?_eq_none_iff.mpr (Nat.le_of_eq hid.symm)]
    exact hfields
  · rw [if_neg hid]
    cases tree.get? id with
    | none => rfl
    | some each => by_cases heach : id = parent <;> simp [heach]

/-- The step: a step that is not refused sets what it says and no other field. -/
theorem fieldsAt_step {first : Step} {changed : Tree} (hstep : tree.step first = .ok changed)
    (id : Nat) :
    changed.fieldsAt id = Node.setEntries (tree.fieldsAt id) (first.setting? id).toList := by
  cases first with
  | push category parent =>
    rw [step, push] at hstep
    split at hstep
    · obtain rfl := Except.ok.inj hstep
      exact fieldsAt_add ‹_› rfl id
    · cases hstep
  | setField node field value =>
    have hget := get?_of_modify (show tree.modify node _ = .ok changed from hstep) id
    rw [fieldsAt, hget, fieldsAt, Step.setting?]
    by_cases hid : node = id
    · -- the step is not refused, so the node is there
      obtain ⟨each, heach⟩ := exists_get? (hid ▸ lt_size_of_modify hstep)
      rw [if_pos hid, if_pos hid, heach]
      rfl
    · rw [if_neg hid, if_neg hid]
      rfl
  | setSpan node span =>
    have hget := get?_of_modify (show tree.modify node _ = .ok changed from hstep) id
    rw [fieldsAt, hget, fieldsAt]
    split
    · rw [Option.map_map]
      rfl
    · rfl

/-- The run: the fields of a node are those that were set, one after the other. -/
theorem fieldsAt_run (tree : Tree) (steps : List Step) (id : Nat) :
    (tree.run steps).fieldsAt id =
      Node.setEntries (tree.fieldsAt id) (tree.settings steps id) := by
  induction steps generalizing tree with
  | nil => rfl
  | cons first steps ih =>
    rw [run, settings, accepted]
    cases hstep : tree.step first with
    | error fault => exact ih tree
    | ok changed =>
      have hrest := ih changed
      rw [fieldsAt_step hstep, settings] at hrest
      refine hrest.trans ?_
      cases hsetting : first.setting? id with
      | none => rw [List.filterMap_cons_none hsetting]; rfl
      | some setting => rw [List.filterMap_cons_some hsetting]; rfl

/-! ## The chain of ancestors -/

/-- The ancestors of a node are what following the parents gives, until there is none. -/
theorem getElem?_ancestors (h : tree.Linked) (id n : Nat) :
    (tree.ancestors id)[n]? = (fun above => above.bind tree.parent?)^[n + 1] (some id) := by
  induction n generalizing id with
  | zero =>
    cases hp : tree.parent? id with
    | none => simp [ancestors_of_parent?_eq_none hp, hp]
    | some parent => simp [ancestors_of_isParent h hp, hp]
  | succ n ih =>
    rw [Function.iterate_succ_apply, Option.bind_some]
    cases hp : tree.parent? id with
    | none =>
      rw [ancestors_of_parent?_eq_none hp, Function.iterate_fixed rfl]
      rfl
    | some parent =>
      rw [ancestors_of_isParent h hp, List.getElem?_cons_succ]
      exact ih parent

theorem ancestors_pairwise_gt (h : tree.Linked) (id : Nat) :
    (tree.ancestors id).Pairwise (· > ·) :=
  (ancestors_pairwise h id).imp fun habove => habove.lt h

theorem getLast?_ancestors (h : tree.Linked) {id : Nat} (hid : id < tree.size)
    (hroot : id ≠ root) : (tree.ancestors id).getLast? = some root := by
  induction id using Nat.strongRecOn with
  | ind id ih =>
    obtain ⟨parent, hp⟩ := h.exists_parent hid hroot
    have hlt := h.parent_lt hp
    rw [ancestors_of_isParent h hp, List.getLast?_cons]
    by_cases htop : parent = root
    · rw [htop, ancestors_of_parent?_eq_none h.parent?_root]
      rfl
    · rw [ih parent hlt (Nat.lt_trans hlt hid) htop]
      rfl

/-- **What every run of steps keeps**, whichever of them are refused.  The root is the
one node without a parent, parents have smaller numbers than their children, and
the children of a node are the nodes it is the parent of, in increasing order.
A node has each of its fields once, with the value that was set last, and in the
order in which the fields were first set.  Following the parents of a node gives
smaller and smaller numbers, none twice, and stops after the root. -/
theorem run_keeps_tree (category : Category) (steps : List Step) :
    let start := singleton category
    let tree := start.run steps
    (root < tree.size ∧ ∀ id < tree.size, tree.parent? id = none ↔ id = root) ∧
    (∀ id parent, tree.parent? id = some parent → parent < id) ∧
    (∀ parent, (tree.children parent).Pairwise (· < ·) ∧
      ∀ id, id ∈ tree.children parent ↔ tree.parent? id = some parent) ∧
    (∀ id node, tree.get? id = some node →
      (node.fields.map Prod.fst).Nodup ∧
      node.fields.map Prod.fst = ((start.settings steps id).map Prod.fst).eraseDups ∧
      ∀ field, node.field? field = (start.settings steps id).reverse.lookup field) ∧
    (∀ id,
      (∀ n, (tree.ancestors id)[n]? =
        (fun above => above.bind tree.parent?)^[n + 1] (some id)) ∧
      (tree.ancestors id).Pairwise (· > ·) ∧ (tree.ancestors id).Nodup ∧
      (id < tree.size → id ≠ root → (tree.ancestors id).getLast? = some root)) := by
  intro start tree
  have h : tree.Linked := ((Reachable.singleton category).run steps).linked
  refine ⟨⟨h.root_lt_size, fun id hid => parent?_eq_none_iff h hid⟩, fun id parent => h.parent_lt,
    ?_, ?_, ?_⟩
  · intro parent
    exact ⟨h.children_eq parent ▸ List.pairwise_lt_range.filter _, fun id => mem_children_iff h⟩
  · intro id node hnode
    have hfields : node.fields = Node.setEntries [] (start.settings steps id) := by
      have hempty : start.fieldsAt id = [] := by
        cases id <;> rfl
      rw [← fieldsAt_of_get? hnode, fieldsAt_run, hempty]
    simp only [Node.field?, hfields]
    exact ⟨Node.nodup_setEntries _, Node.map_fst_setEntries _, Node.lookup_setEntries _⟩
  · intro id
    have hdecreasing := ancestors_pairwise_gt h id
    exact ⟨getElem?_ancestors h id, hdecreasing, hdecreasing.imp Nat.ne_of_gt,
      getLast?_ancestors h⟩

/-- Two methods that grow in turns.  A field of the first one's body is set too early,
a node goes below one that is not there, and a field is set twice. -/
def interleaved : List Step :=
  [.push .methodDeclaration 0, .setField 2 .name (.text "early"), .push .block 1,
   .setField 2 .name (.text "first"), .push .block 7, .setField 2 .type (.text "int"),
   .push .methodDeclaration 0, .setField 2 .name (.text "last"), .push .returnStatement 2,
   .setSpan 4 ⟨2, 3⟩]

theorem run_keeps_tree_interleaved :
    let tree := (singleton .compilationUnit).run interleaved
    tree.size = 5 ∧ tree.parent? 4 = some 2 ∧ 4 ∈ tree.children 2 ∧
    (∃ node, tree.get? 2 = some node ∧ node.fields.map Prod.fst = [.name, .type] ∧
      node.field? .name = some (.text "last")) ∧
    (tree.ancestors 4).getLast? = some root := by
  intro tree
  obtain ⟨_, _, hchildren, hfields, hancestors⟩ := run_keeps_tree .compilationUnit interleaved
  have hsize : tree.size = 5 := by decide
  have hparent : tree.parent? 4 = some 2 := by decide
  have hsettings : (singleton .compilationUnit).settings interleaved 2 =
      [(.name, .text "first"), (.type, .text "int"), (.name, .text "last")] := by
    decide
  obtain ⟨node, hnode⟩ : ∃ node, tree.get? 2 = some node :=
    exists_get? (by rw [hsize]; decide)
  obtain ⟨_, hnames, hvalues⟩ := hfields 2 node hnode
  rw [hsettings] at hnames hvalues
  exact ⟨hsize, hparent, ((hchildren 2).2 4).mpr hparent,
    ⟨node, hnode, hnames, hvalues .name⟩,
    (hancestors 4).2.2.2 (by rw [hsize]; decide) (by decide)⟩

end SyntaxForest.Tree
