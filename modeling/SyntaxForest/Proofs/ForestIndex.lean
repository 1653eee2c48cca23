import Mathlib.Data.List.Nodup
import Mathlib.Data.List.Perm.Basic
import SyntaxForest.Forest
import SyntaxForest.Proofs.NameMap

/-! What a forest keeps beside its nodes and edges.  A `Drawing` has nodes and edges
alone, and what is asked of it is searched for.  Its forest, `indexed`, has the number
of every source and the parent of every node as well.  As long as a drawing is well
kept, the look-ups of its forest find what a search finds; and an addition to the
forest is refused where that to the drawing is, and otherwise leads to the forest of
the drawing that comes of it. -/

namespace SyntaxForest

/-- Drawn nodes with the edges between them, and nothing kept beside them. -/
structure Drawing where
  nodes : Array Forest.Node := #[]
  edges : Array Forest.Edge := #[]

namespace Drawing

open Forest (Node Edge Fault)

/-- How many nodes are drawn. -/
def size (drawing : Drawing) : Nat :=
  drawing.nodes.size

/-- The drawn node of a number. -/
def get? (drawing : Drawing) (id : Nat) : Option Node :=
  drawing.nodes[id]?

/-- Searches for the drawn node that stands for a tree node. -/
def drawn? (drawing : Drawing) (source : Nat) : Option Nat :=
  drawing.nodes.findIdx? fun node => node.source = source

/-- Searches for the edge to a node, and tells where it comes from. -/
def parent? (drawing : Drawing) (id : Nat) : Option Nat :=
  (drawing.edges.find? fun edge => edge.stop = id).map Edge.start

/-- The nodes that no edge is found to lead to. -/
def roots (drawing : Drawing) : List Node :=
  drawing.nodes.toList.filter fun node => (drawing.parent? node.id).isNone

/-- Adds a node under the next number. -/
def addNode (drawing : Drawing) (node : Node) : Except Fault (Drawing × Nat) :=
  if (drawing.drawn? node.source).isSome then .error (.drawnTwice node.source)
  else
    .ok ({ drawing with nodes := drawing.nodes.push { node with id := drawing.size } },
      drawing.size)

/-- Adds an edge between two drawn nodes. -/
def addEdge (drawing : Drawing) (start stop : Nat) : Except Fault Drawing :=
  if ¬ start < drawing.size then .error (.noStart start)
  else if ¬ stop < drawing.size then .error (.noStop stop)
  else if start = stop then .error (.selfLoop start)
  else if (drawing.parent? stop).isSome then .error (.secondParent stop)
  else .ok { drawing with edges := drawing.edges.push ⟨start, stop⟩ }

variable {drawing grown : Drawing}

/-! ## What an accepted addition does -/

theorem drawn?_eq_none_iff {source : Nat} :
    drawing.drawn? source = none ↔ source ∉ drawing.nodes.toList.map Node.source := by
  rw [drawn?, Array.findIdx?_eq_none_iff]
  simp

theorem parent?_eq_none_iff {id : Nat} :
    drawing.parent? id = none ↔ id ∉ drawing.edges.toList.map Edge.stop := by
  rw [parent?, Option.map_eq_none_iff, Array.find?_eq_none]
  simp

/-- One edge more is found where it leads to, if none led there before. -/
theorem parent?_push {stop : Nat} (h : drawing.parent? stop = none) (start id : Nat) :
    parent? { drawing with edges := drawing.edges.push ⟨start, stop⟩ } id =
      if id = stop then some start else drawing.parent? id := by
  rw [parent?, Option.map_eq_none_iff] at h
  rw [parent?, parent?, Array.find?_push]
  by_cases hid : id = stop
  · rw [hid, h]
    simp
  · simp [hid, Ne.symm hid]

/-- A node is accepted when its source is new. -/
theorem addNode_eq_ok_iff {node : Node} {id : Nat} :
    drawing.addNode node = .ok (grown, id) ↔
      node.source ∉ drawing.nodes.toList.map Node.source ∧ id = drawing.size ∧
        grown = { drawing with nodes := drawing.nodes.push { node with id := drawing.size } } := by
  rw [addNode, ← drawn?_eq_none_iff]
  cases drawing.drawn? node.source with
  | some place => simp
  | none => simp [and_comm, eq_comm]

/-- An edge is accepted between different nodes, the second of them without a parent. -/
theorem addEdge_eq_ok_iff {start stop : Nat} :
    drawing.addEdge start stop = .ok grown ↔
      (start < drawing.size ∧ stop < drawing.size ∧ start ≠ stop ∧
        drawing.parent? stop = none) ∧
      grown = { drawing with edges := drawing.edges.push ⟨start, stop⟩ } := by
  rw [addEdge]
  by_cases hstart : start < drawing.size
  · by_cases hstop : stop < drawing.size
    · by_cases heq : start = stop
      · simp [hstop, heq]
      · cases hparent : drawing.parent? stop with
        | some parent => simp [hstart, hstop, heq]
        | none => simp [hstart, hstop, heq, eq_comm]
    · simp [hstart, hstop]
  · simp [hstart]

/-! ## What every addition keeps -/

/-- A node has its place as its number, no two nodes stand for one source, and edges
lead from one node to another, to each at most one. -/
structure WellKept (drawing : Drawing) : Prop where
  id_eq : ∀ {place node}, drawing.get? place = some node → node.id = place
  sources_nodup : (drawing.nodes.toList.map Node.source).Nodup
  start_lt : ∀ edge ∈ drawing.edges, edge.start < drawing.size
  stop_lt : ∀ edge ∈ drawing.edges, edge.stop < drawing.size
  start_ne_stop : ∀ edge ∈ drawing.edges, edge.start ≠ edge.stop
  stops_nodup : (drawing.edges.toList.map Edge.stop).Nodup

theorem wellKept_empty : WellKept {} where
  id_eq := by simp [get?]
  sources_nodup := List.nodup_nil
  start_lt := by simp
  stop_lt := by simp
  start_ne_stop := by simp
  stops_nodup := List.nodup_nil

theorem WellKept.addNode (h : drawing.WellKept) {node : Node} {id : Nat}
    (hadd : drawing.addNode node = .ok (grown, id)) : grown.WellKept := by
  obtain ⟨hfresh, -, rfl⟩ := addNode_eq_ok_iff.mp hadd
  have hsize : Drawing.size { drawing with
      nodes := drawing.nodes.push { node with id := drawing.size } } = drawing.size + 1 :=
    Array.size_push _
  constructor
  · intro place each heach
    rw [get?, Array.getElem?_push] at heach
    split at heach
    · rename_i hplace
      rw [← Option.some.inj heach]
      exact hplace.symm
    · exact h.id_eq heach
  · rw [Array.toList_push, List.map_append, List.nodup_append]
    refine ⟨h.sources_nodup, List.nodup_singleton _, ?_⟩
    intro source hsource other hother heq
    rw [List.map_singleton, List.mem_singleton] at hother
    rw [heq, hother] at hsource
    exact hfresh hsource
  · intro edge hedge
    rw [hsize]
    exact Nat.lt_succ_of_lt (h.start_lt edge hedge)
  · intro edge hedge
    rw [hsize]
    exact Nat.lt_succ_of_lt (h.stop_lt edge hedge)
  · exact h.start_ne_stop
  · exact h.stops_nodup

theorem WellKept.addEdge (h : drawing.WellKept) {start stop : Nat}
    (hadd : drawing.addEdge start stop = .ok grown) : grown.WellKept := by
  obtain ⟨⟨hstart, hstop, hne, hparent⟩, rfl⟩ := addEdge_eq_ok_iff.mp hadd
  have hedges : ∀ {p : Edge → Prop}, (∀ edge ∈ drawing.edges, p edge) → p ⟨start, stop⟩ →
      ∀ edge ∈ drawing.edges.push ⟨start, stop⟩, p edge := by
    intro p hold hnew edge hedge
    rcases Array.mem_push.mp hedge with hedge | rfl
    · exact hold edge hedge
    · exact hnew
  constructor
  · exact h.id_eq
  · exact h.sources_nodup
  · exact hedges h.start_lt hstart
  · exact hedges h.stop_lt hstop
  · exact hedges h.start_ne_stop hne
  · rw [Array.toList_push, List.map_append, List.nodup_append]
    refine ⟨h.stops_nodup, List.nodup_singleton _, ?_⟩
    intro target htarget other hother heq
    rw [List.map_singleton, List.mem_singleton] at hother
    rw [heq, hother] at htarget
    exact parent?_eq_none_iff.mp hparent htarget

/-! ## What the searches find -/

theorem mem_roots_iff {node : Node} :
    node ∈ drawing.roots ↔ node ∈ drawing.nodes ∧ ∀ edge ∈ drawing.edges, edge.stop ≠ node.id := by
  rw [roots, List.mem_filter, Option.isNone_iff_eq_none, parent?_eq_none_iff]
  simp

namespace WellKept
variable (h : drawing.WellKept)
include h

/-- The search by source finds the node of that source. -/
theorem drawn?_eq_some_iff {source place : Nat} :
    drawing.drawn? source = some place ↔
      ∃ node, drawing.get? place = some node ∧ node.source = source := by
  constructor
  · intro hfound
    obtain ⟨hlt, hsource, -⟩ := Array.findIdx?_eq_some_iff_getElem.mp hfound
    exact ⟨drawing.nodes[place], Array.getElem?_eq_getElem hlt, of_decide_eq_true hsource⟩
  · rintro ⟨node, hnode, rfl⟩
    obtain ⟨hlt, hget⟩ := Array.getElem?_eq_some_iff.mp hnode
    refine Array.findIdx?_eq_some_iff_getElem.mpr ⟨hlt, by simp [hget], ?_⟩
    -- an earlier node has another source
    intro early hearly
    have hsources := List.pairwise_iff_getElem.mp h.sources_nodup early place
      (by simpa using Nat.lt_trans hearly hlt) (by simpa using hlt) hearly
    simpa [hget] using hsources

/-- The search by target finds the edge to that target. -/
theorem parent?_eq_some_iff {start stop : Nat} :
    drawing.parent? stop = some start ↔ ⟨start, stop⟩ ∈ drawing.edges := by
  constructor
  · intro hparent
    obtain ⟨⟨start', stop'⟩, hfound, rfl⟩ := Option.map_eq_some_iff.mp hparent
    have hstop : stop' = stop := by simpa using Array.find?_some hfound
    rw [← hstop]
    exact Array.mem_of_find?_eq_some hfound
  · intro hedge
    cases hparent : drawing.parent? stop with
    | none =>
      have hnot := parent?_eq_none_iff.mp hparent
      exact absurd (List.mem_map_of_mem (f := Edge.stop) hedge.val) hnot
    | some other =>
      -- the edge that was found has the same target, and there is only one
      obtain ⟨found, hfound, rfl⟩ := Option.map_eq_some_iff.mp hparent
      have hstop : found.stop = stop := by simpa using Array.find?_some hfound
      have heq := List.inj_on_of_nodup_map h.stops_nodup
        (Array.mem_of_find?_eq_some hfound).val hedge.val hstop
      rw [heq]

/-- Nothing is found above a number that is not given yet. -/
theorem parent?_of_size_le {id : Nat} (hid : drawing.size ≤ id) : drawing.parent? id = none := by
  cases hparent : drawing.parent? id with
  | none => rfl
  | some start =>
    have hlt := h.stop_lt _ (h.parent?_eq_some_iff.mp hparent)
    exact absurd hid (Nat.not_le.mpr hlt)

theorem map_id_nodes : drawing.nodes.toList.map Node.id = List.range drawing.size := by
  apply List.ext_getElem?
  intro place
  rw [List.getElem?_map, Array.getElem?_toList]
  cases hnode : drawing.nodes[place]? with
  | none =>
    have hle : drawing.size ≤ place := Array.getElem?_eq_none_iff.mp hnode
    simp [hle]
  | some node =>
    have hlt : place < drawing.size := (Array.getElem?_eq_some_iff.mp hnode).1
    rw [Option.map_some, h.id_eq hnode, List.getElem?_range hlt]

theorem roots_pairwise : (drawing.roots.map Node.id).Pairwise (· < ·) := by
  have hall : (drawing.nodes.toList.map Node.id).Pairwise (· < ·) := by
    rw [h.map_id_nodes]
    exact List.pairwise_lt_range
  exact hall.sublist (List.filter_sublist.map Node.id)

/-- The nodes that are no roots are the targets of the edges. -/
theorem targets_perm :
    ((drawing.nodes.toList.filter fun node => !(drawing.parent? node.id).isNone).map Node.id).Perm
      (drawing.edges.toList.map Edge.stop) := by
  have hnodup : (drawing.nodes.toList.map Node.id).Nodup := by
    rw [h.map_id_nodes]
    exact List.nodup_range
  refine (List.perm_ext_iff_of_nodup (hnodup.sublist (List.filter_sublist.map Node.id))
    h.stops_nodup).mpr fun id => ?_
  rw [← not_iff_not, ← parent?_eq_none_iff]
  constructor
  · intro hnot
    by_contra hparent
    obtain ⟨start, hstart⟩ := Option.ne_none_iff_exists'.mp hparent
    have hlt := h.stop_lt _ (h.parent?_eq_some_iff.mp hstart)
    have hmem : id ∈ drawing.nodes.toList.map Node.id := by
      rw [h.map_id_nodes]
      exact List.mem_range.mpr hlt
    obtain ⟨node, hnode, rfl⟩ := List.mem_map.mp hmem
    exact hnot (List.mem_map_of_mem (List.mem_filter.mpr ⟨hnode, by simp [hstart]⟩))
  · intro hnone hmem
    obtain ⟨node, hnode, rfl⟩ := List.mem_map.mp hmem
    simpa [hnone] using (List.mem_filter.mp hnode).2

/-- Every node is a root or the target of one edge. -/
theorem length_roots_add_size_edges :
    drawing.roots.length + drawing.edges.size = drawing.nodes.size := by
  have hsplit := List.length_eq_length_filter_add (l := drawing.nodes.toList)
    fun node => (drawing.parent? node.id).isNone
  have htargets := h.targets_perm.length_eq
  rw [List.length_map, List.length_map] at htargets
  rw [htargets] at hsplit
  exact hsplit.symm

end WellKept

/-! ## The forest of a drawing -/

/-- The forest of a drawing: the same nodes and edges, with the number that each source
has and the parent that a search finds for each number. -/
def indexed (drawing : Drawing) : Forest where
  nodes := drawing.nodes
  edges := drawing.edges
  bySource := drawing.nodes.toList.map fun node => (node.source, node.id)
  parents := ((List.range drawing.size).map drawing.parent?).toArray

theorem lookup_bySource (nodes : List Node) (source : Nat) :
    (nodes.map fun node => (node.source, node.id)).lookup source =
      (nodes.find? fun node => node.source = source).map Node.id := by
  induction nodes with
  | nil => rfl
  | cons node nodes ih =>
    rw [List.map_cons, NameMap.lookup_cons, ih, List.find?_cons]
    by_cases hsource : source = node.source
    · simp [hsource]
    · simp [hsource, Ne.symm hsource]

section
variable (h : drawing.WellKept)
include h

/-- The number of a source is where a search finds it. -/
theorem drawn?_indexed (source : Nat) :
    drawing.indexed.drawn? source = drawing.drawn? source := by
  have hlookup : drawing.indexed.drawn? source =
      (drawing.nodes.toList.find? fun node => node.source = source).map Node.id :=
    lookup_bySource _ _
  cases hdrawn : drawing.drawn? source with
  | none =>
    rw [hlookup, Option.map_eq_none_iff, List.find?_eq_none]
    intro node hnode
    rw [decide_eq_true_iff]
    rintro rfl
    exact drawn?_eq_none_iff.mp hdrawn (List.mem_map_of_mem hnode)
  | some place =>
    obtain ⟨node, hnode, rfl⟩ := h.drawn?_eq_some_iff.mp hdrawn
    cases hfound : drawing.nodes.toList.find? fun other => other.source = node.source with
    | none =>
      have hnot := List.find?_eq_none.mp hfound node
        (Array.mem_toList_iff.mpr (Array.mem_of_getElem? hnode))
      exact absurd (decide_eq_true rfl) hnot
    | some other =>
      -- only one node has the source, and it has its place as its number
      have hsame : other = node := List.inj_on_of_nodup_map h.sources_nodup
        (List.mem_of_find?_eq_some hfound)
        (Array.mem_toList_iff.mpr (Array.mem_of_getElem? hnode))
        (by simpa using List.find?_some hfound)
      rw [hlookup, hfound, Option.map_some, hsame, h.id_eq hnode]

/-- The parent of a number is where a search finds it. -/
theorem parent?_indexed (id : Nat) : drawing.indexed.parent? id = drawing.parent? id := by
  rw [Forest.parent?, indexed, List.getElem?_toArray, List.getElem?_map]
  by_cases hid : id < drawing.size
  · rw [List.getElem?_range hid]
    rfl
  · rw [List.getElem?_eq_none (by simpa using hid), h.parent?_of_size_le (Nat.not_lt.mp hid)]
    rfl

theorem roots_indexed : drawing.indexed.roots = drawing.roots := by
  rw [Forest.roots, roots]
  simp only [parent?_indexed h]
  rfl

/-- Additions of nodes to a drawing and to its forest go together. -/
theorem addNode_indexed (node : Node) :
    drawing.indexed.addNode node =
      (drawing.addNode node).map fun result => (result.1.indexed, result.2) := by
  rw [Forest.addNode, addNode, drawn?_indexed h]
  cases hdrawn : drawing.drawn? node.source with
  | some place => rfl
  | none =>
    have hnew : node.source ∉ (drawing.indexed.bySource.map Prod.fst) := by
      rw [indexed, List.map_map]
      exact drawn?_eq_none_iff.mp hdrawn
    have hparents : ((List.range (drawing.size + 1)).map drawing.parent?).toArray =
        drawing.indexed.parents.push none := by
      rw [List.range_succ, List.map_append, List.map_singleton,
        h.parent?_of_size_le (Nat.le_refl _), indexed, List.push_toArray]
    rw [NameMap.setEntry_of_notMem hnew, ← hparents]
    simp only [Option.isSome_none, Bool.false_eq_true, if_false, Except.map, indexed, size,
      Array.size_push, Array.toList_push, List.map_append, List.map_singleton, Forest.size]
    rfl

omit h in
/-- The parent of one node is set where the edge to it is added. -/
theorem parents_indexed_push {stop : Nat} (hstop : stop < drawing.size)
    (hnone : drawing.parent? stop = none) (start : Nat) :
    (indexed { drawing with edges := drawing.edges.push ⟨start, stop⟩ }).parents =
      drawing.indexed.parents.setIfInBounds stop (some start) := by
  rw [indexed, indexed, List.setIfInBounds_toArray, funext (parent?_push hnone start)]
  refine congrArg List.toArray (List.ext_getElem? fun id => ?_)
  rw [List.getElem?_map, List.getElem?_set, List.getElem?_map, List.length_map, List.length_range]
  by_cases hid : stop = id
  · rw [if_pos hid, if_pos hstop, ← hid]
    change ((List.range drawing.size)[stop]?).map _ = _
    rw [List.getElem?_range hstop, Option.map_some, if_pos rfl]
  · rw [if_neg hid]
    refine Option.map_congr fun other hother => if_neg ?_
    rintro rfl
    obtain ⟨hlt, hget⟩ := List.getElem?_eq_some_iff.mp hother
    exact hid (hget.symm.trans (List.getElem_range hlt))

/-- Additions of edges to a drawing and to its forest go together. -/
theorem addEdge_indexed (start stop : Nat) :
    drawing.indexed.addEdge start stop = (drawing.addEdge start stop).map indexed := by
  have hsize : drawing.indexed.size = drawing.size := rfl
  rw [Forest.addEdge, addEdge, parent?_indexed h, hsize]
  split
  · rfl
  · split
    · rfl
    · split
      · rfl
      · split
        · rfl
        · rename_i hstop _ hnone
          rw [← parents_indexed_push (Decidable.not_not.mp hstop)
            (Option.not_isSome_iff_eq_none.mp hnone)]
          rfl

end

end Drawing

end SyntaxForest
