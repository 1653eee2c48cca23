import Mathlib.Data.List.Perm.Subperm
import SyntaxForest.Proofs.ForestIndex

/-! Forests that are grown call by call.  Whatever is asked for, and in whatever
order, a forest stays that of the drawing that is grown by the same calls, and the
drawing keeps its numbers in order, its sources apart and at most one edge to a node; a
call that would spoil this is refused.  So the look-ups by source and by target tell
the same as the nodes and edges themselves, and every node is either a root or the
target of one edge. -/

namespace SyntaxForest

/-- A call on a forest. -/
inductive Forest.Call where
  | addNode (node : Forest.Node)
  | addEdge (start stop : Nat)
deriving DecidableEq, Repr

theorem map_fst_eq_ok_iff {ε α β : Type} {result : Except ε (α × β)} {first : α} :
    result.map Prod.fst = .ok first ↔ ∃ second, result = .ok (first, second) := by
  rcases result with error | ⟨a, b⟩
  · simp [Except.map]
  · simp [Except.map]

namespace Forest

/-- The forest after a call, unless the call is refused. -/
def call (forest : Forest) : Call → Except Fault Forest
  | .addNode node => (forest.addNode node).map Prod.fst
  | .addEdge start stop => forest.addEdge start stop

/-- The forest after any number of calls, those that are refused left out. -/
def run (forest : Forest) : List Call → Forest
  | [] => forest
  | first :: calls =>
    match forest.call first with
    | .ok grown => grown.run calls
    | .error _ => forest.run calls

end Forest

/-! ## Calls on drawings -/

namespace Drawing

open Forest (Node Fault Call)

variable {drawing grown : Drawing}

@[inherit_doc Forest.call]
def call (drawing : Drawing) : Call → Except Fault Drawing
  | .addNode node => (drawing.addNode node).map Prod.fst
  | .addEdge start stop => drawing.addEdge start stop

@[inherit_doc Forest.run]
def run (drawing : Drawing) : List Call → Drawing
  | [] => drawing
  | first :: calls =>
    match drawing.call first with
    | .ok grown => grown.run calls
    | .error _ => drawing.run calls

theorem call_cases {first : Call} (h : drawing.call first = .ok grown) :
    (∃ node id, first = .addNode node ∧ drawing.addNode node = .ok (grown, id)) ∨
      ∃ start stop, first = .addEdge start stop ∧ drawing.addEdge start stop = .ok grown := by
  cases first with
  | addEdge start stop => exact .inr ⟨start, stop, rfl, h⟩
  | addNode node =>
    obtain ⟨id, hadd⟩ := map_fst_eq_ok_iff.mp h
    exact .inl ⟨node, id, rfl, hadd⟩

/-- One accepted call keeps the indexes of a drawing right. -/
theorem WellKept.call (h : drawing.WellKept) {first : Call}
    (hcall : drawing.call first = .ok grown) : grown.WellKept := by
  rcases call_cases hcall with ⟨node, id, -, hadd⟩ | ⟨start, stop, -, hadd⟩
  · exact h.addNode hadd
  · exact h.addEdge hadd

/-- A whole run keeps the indexes of a drawing right, whichever calls are refused. -/
theorem WellKept.run (h : drawing.WellKept) (calls : List Call) :
    (drawing.run calls).WellKept := by
  induction calls generalizing drawing with
  | nil => exact h
  | cons first calls ih =>
    rw [Drawing.run]
    split
    · exact ih (h.call ‹_›)
    · exact ih h

/-- A call does the same to a drawing and to its forest. -/
theorem call_indexed (h : drawing.WellKept) (first : Call) :
    drawing.indexed.call first = (drawing.call first).map indexed := by
  cases first with
  | addNode node =>
    rw [Forest.call, call, addNode_indexed h]
    cases drawing.addNode node <;> rfl
  | addEdge start stop => exact addEdge_indexed h start stop

/-- **The forest follows its drawing** through any calls. -/
theorem run_indexed (h : drawing.WellKept) (calls : List Call) :
    drawing.indexed.run calls = (drawing.run calls).indexed := by
  induction calls generalizing drawing with
  | nil => rfl
  | cons first calls ih =>
    rw [Forest.run, run, call_indexed h]
    cases hcall : drawing.call first with
    | ok grown => exact ih (h.call hcall)
    | error fault => exact ih h

/-- Sources come from the calls. -/
theorem mem_sources_run {source : Nat} (calls : List Call)
    (h : source ∈ (drawing.run calls).nodes.toList.map Node.source) :
    source ∈ drawing.nodes.toList.map Node.source ∨
      ∃ node, Call.addNode node ∈ calls ∧ node.source = source := by
  induction calls generalizing drawing with
  | nil => exact .inl h
  | cons first calls ih =>
    have hlater : (∃ node, Call.addNode node ∈ calls ∧ node.source = source) →
        ∃ node, Call.addNode node ∈ first :: calls ∧ node.source = source := by
      rintro ⟨node, hnode, hsource⟩
      exact ⟨node, List.mem_cons_of_mem _ hnode, hsource⟩
    rw [run] at h
    split at h
    · rename_i grown hcall
      rcases ih h with hgrown | hcalled
      · rcases call_cases hcall with ⟨node, id, rfl, hadd⟩ | ⟨start, stop, -, hadd⟩
        · obtain ⟨-, -, rfl⟩ := addNode_eq_ok_iff.mp hadd
          rw [Array.toList_push, List.map_append, List.mem_append] at hgrown
          refine hgrown.imp_right fun hnew => ⟨node, List.mem_cons_self, ?_⟩
          exact (List.mem_singleton.mp hnew).symm
        · obtain ⟨-, rfl⟩ := addEdge_eq_ok_iff.mp hadd
          exact .inl hgrown
      · exact .inr (hlater hcalled)
    · exact (ih h).imp_right hlater

end Drawing

namespace Forest

variable {forest grown : Forest}

/-! ## What an accepted call does -/

/-- A node is accepted exactly when none is drawn for its source; it gets the next number. -/
theorem addNode_eq_ok_iff {node : Node} {id : Nat} :
    forest.addNode node = .ok (grown, id) ↔
      forest.drawn? node.source = none ∧ id = forest.size ∧
        grown = { forest with
          bySource := setEntry node.source forest.size forest.bySource
          nodes := forest.nodes.push { node with id := forest.size }
          parents := forest.parents.push none } := by
  rw [addNode]
  cases forest.drawn? node.source with
  | some place => simp
  | none => simp [and_comm, eq_comm]

/-- An edge is accepted exactly between two different nodes of which the second has no parent
yet. -/
theorem addEdge_eq_ok_iff {start stop : Nat} :
    forest.addEdge start stop = .ok grown ↔
      (start < forest.size ∧ stop < forest.size ∧ start ≠ stop ∧ forest.parent? stop = none) ∧
        grown = { forest with
          parents := forest.parents.setIfInBounds stop (some start)
          edges := forest.edges.push ⟨start, stop⟩ } := by
  rw [addEdge]
  by_cases hstart : start < forest.size
  · by_cases hstop : stop < forest.size
    · by_cases heq : start = stop
      · simp [hstop, heq]
      · cases hparent : forest.parent? stop with
        | some parent => simp [hstart, hstop, heq]
        | none => simp [hstart, hstop, heq, eq_comm]
    · simp [hstart, hstop]
  · simp [hstart]

theorem call_cases {first : Call} (h : forest.call first = .ok grown) :
    (∃ node id, first = .addNode node ∧ forest.addNode node = .ok (grown, id)) ∨
      ∃ start stop, first = .addEdge start stop ∧ forest.addEdge start stop = .ok grown := by
  cases first with
  | addEdge start stop => exact .inr ⟨start, stop, rfl, h⟩
  | addNode node =>
    obtain ⟨id, hadd⟩ := map_fst_eq_ok_iff.mp h
    exact .inl ⟨node, id, rfl, hadd⟩

/-! ## What every call keeps -/

/-- A forest is well kept when it is that of a well-kept drawing. -/
def WellKept (forest : Forest) : Prop :=
  ∃ drawing : Drawing, drawing.WellKept ∧ forest = drawing.indexed

theorem wellKept_empty : WellKept {} :=
  ⟨{}, Drawing.wellKept_empty, rfl⟩

namespace WellKept
variable (h : forest.WellKept)
include h

theorem call {first : Call} (hcall : forest.call first = .ok grown) : grown.WellKept := by
  obtain ⟨drawing, hkept, rfl⟩ := h
  rw [Drawing.call_indexed hkept] at hcall
  cases hdrawing : drawing.call first with
  | error fault =>
    rw [hdrawing] at hcall
    cases hcall
  | ok next =>
    rw [hdrawing] at hcall
    exact ⟨next, hkept.call hdrawing, (Except.ok.inj hcall).symm⟩

theorem run (calls : List Call) : (forest.run calls).WellKept := by
  obtain ⟨drawing, hkept, rfl⟩ := h
  exact ⟨drawing.run calls, hkept.run calls, Drawing.run_indexed hkept calls⟩

theorem id_eq {place : Nat} {node : Node} (hnode : forest.get? place = some node) :
    node.id = place := by
  obtain ⟨drawing, hkept, rfl⟩ := h
  exact hkept.id_eq hnode

theorem start_lt : ∀ edge ∈ forest.edges, edge.start < forest.size := by
  obtain ⟨drawing, hkept, rfl⟩ := h
  exact hkept.start_lt

theorem stop_lt : ∀ edge ∈ forest.edges, edge.stop < forest.size := by
  obtain ⟨drawing, hkept, rfl⟩ := h
  exact hkept.stop_lt

theorem size_parents : forest.parents.size = forest.size := by
  obtain ⟨drawing, -, rfl⟩ := h
  rw [Drawing.indexed, List.size_toArray, List.length_map, List.length_range]
  rfl

/-- The look-up by target finds the edge to that target. -/
theorem parent?_eq_some_iff {start stop : Nat} :
    forest.parent? stop = some start ↔ ⟨start, stop⟩ ∈ forest.edges := by
  obtain ⟨drawing, hkept, rfl⟩ := h
  rw [Drawing.parent?_indexed hkept]
  exact hkept.parent?_eq_some_iff

end WellKept

/-- Sources of 32 bits number as many nodes at most as there are numbers of 32 bits. -/
theorem size_le_of_sources {drawing : Drawing} (h : drawing.WellKept)
    (hsources : ∀ source ∈ drawing.nodes.toList.map Node.source, source < UInt32.size) :
    drawing.nodes.size ≤ UInt32.size := by
  have hsub : drawing.nodes.toList.map Node.source ⊆ List.range UInt32.size :=
    fun source hsource => List.mem_range.mpr (hsources source hsource)
  have hle := (h.sources_nodup.subperm hsub).length_le
  rwa [List.length_map, Array.length_toList, List.length_range] at hle

theorem source_lt_of_mem_run {calls : List Call}
    (h : ∀ node, Call.addNode node ∈ calls → node.source < UInt32.size) :
    ∀ source ∈ (Drawing.run {} calls).nodes.toList.map Node.source, source < UInt32.size := by
  intro source hsource
  rcases Drawing.mem_sources_run calls hsource with hnone | ⟨node, hnode, rfl⟩
  · cases hnone
  · exact h node hnode

/-- A node that is accepted finds a number of 32 bits free. -/
theorem size_lt_of_addNode {drawing grown : Drawing} (h : drawing.WellKept)
    (hsources : ∀ source ∈ drawing.nodes.toList.map Node.source, source < UInt32.size)
    {node : Node} {id : Nat} (hnode : node.source < UInt32.size)
    (hadd : drawing.addNode node = .ok (grown, id)) : drawing.nodes.size < UInt32.size := by
  have hgrown := h.addNode hadd
  obtain ⟨-, -, rfl⟩ := Drawing.addNode_eq_ok_iff.mp hadd
  have hle := size_le_of_sources hgrown fun source hsource => by
    rw [Array.toList_push, List.map_append, List.map_singleton, List.mem_append,
      List.mem_singleton] at hsource
    rcases hsource with hold | rfl
    · exact hsources source hold
    · exact hnode
  rwa [Array.size_push] at hle

/-- The next number is the count of the nodes while that fits in 32 bits. -/
theorem toNat_nextId (h : forest.size < UInt32.size) : forest.nextId.toNat = forest.size :=
  UInt32.toNat_ofNat_of_lt' h

/-- The number of 32 bits that is said to be the next is the one that an accepted node gets. -/
theorem toNat_nextId_of_addNode {drawing : Drawing} (h : drawing.WellKept)
    (hsources : ∀ source ∈ drawing.nodes.toList.map Node.source, source < UInt32.size)
    {node : Node} {id : Nat} (hnode : node.source < UInt32.size)
    (hadd : drawing.indexed.addNode node = .ok (grown, id)) :
    drawing.indexed.nextId.toNat = id := by
  rw [Drawing.addNode_indexed h] at hadd
  cases hdrawing : drawing.addNode node with
  | error fault =>
    rw [hdrawing] at hadd
    cases hadd
  | ok result =>
    obtain ⟨after, number⟩ := result
    rw [hdrawing] at hadd
    obtain rfl : number = id := (Prod.mk.inj (Except.ok.inj hadd)).2
    rw [(Drawing.addNode_eq_ok_iff.mp hdrawing).2.1]
    exact toNat_nextId (size_lt_of_addNode h hsources hnode hdrawing)

/-- **Every call keeps the forest in order.**  After any calls on the empty forest, of
which those that are refused change nothing: nodes are numbered by their places, the
next node gets the number of nodes as its number, and sources are distinct, so that
the look-up by source tells exactly the node of a source; edges join different nodes
of the forest and no two of them have one target, so that the look-up by target tells
exactly the edges; and the roots are the nodes that are no target, in the order of
their numbers, so that roots and edges together are as many as the nodes.  Where the
sources have 32 bits, so have all numbers, and what is said in 32 bits to be the next
number is the number that the next node gets. -/
theorem run_keeps_order (calls : List Call) :
    let forest := run {} calls
    (∀ place node, forest.get? place = some node → node.id = place) ∧
    (∀ node grown id, forest.addNode node = .ok (grown, id) → id = forest.nodes.size) ∧
    ((∀ node, Call.addNode node ∈ calls → node.source < UInt32.size) →
      forest.nodes.size ≤ UInt32.size ∧
        (forest.nodes.size ≠ UInt32.size → forest.nextId.toNat = forest.nodes.size) ∧
        ∀ node grown id, node.source < UInt32.size → forest.addNode node = .ok (grown, id) →
          forest.nextId.toNat = id) ∧
    (forest.nodes.toList.map Node.source).Nodup ∧
    (∀ source place, forest.drawn? source = some place ↔
      ∃ node, forest.get? place = some node ∧ node.source = source) ∧
    (∀ edge ∈ forest.edges, edge.start < forest.nodes.size ∧ edge.stop < forest.nodes.size ∧
      edge.start ≠ edge.stop) ∧
    (∀ start stop, forest.parent? stop = some start ↔ ⟨start, stop⟩ ∈ forest.edges) ∧
    (forest.edges.toList.map Edge.stop).Nodup ∧
    (∀ node, node ∈ forest.roots ↔
      node ∈ forest.nodes ∧ ∀ edge ∈ forest.edges, edge.stop ≠ node.id) ∧
    (forest.roots.map Node.id).Pairwise (· < ·) ∧
    forest.roots.length + forest.edges.size = forest.nodes.size := by
  have h := Drawing.wellKept_empty.run calls
  have hrun : run {} calls = (Drawing.run {} calls).indexed :=
    Drawing.run_indexed Drawing.wellKept_empty calls
  rw [hrun]
  dsimp only
  rw [Drawing.roots_indexed h]
  refine ⟨fun place node hnode => h.id_eq hnode,
    fun node grown id hadd => (addNode_eq_ok_iff.mp hadd).2.1, fun hsources => ?_,
    h.sources_nodup, fun source place => ?_,
    fun edge hedge => ⟨h.start_lt edge hedge, h.stop_lt edge hedge, h.start_ne_stop edge hedge⟩,
    fun start stop => ?_, h.stops_nodup, fun node => Drawing.mem_roots_iff, h.roots_pairwise,
    h.length_roots_add_size_edges⟩
  · -- distinct sources of 32 bits leave a number of 32 bits to every node
    have hlt := source_lt_of_mem_run hsources
    have hle := size_le_of_sources h hlt
    exact ⟨hle, fun hne => toNat_nextId (Nat.lt_of_le_of_ne hle hne),
      fun node grown id hnode hadd => toNat_nextId_of_addNode h hlt hnode hadd⟩
  · rw [Drawing.drawn?_indexed h]
    exact h.drawn?_eq_some_iff
  · rw [Drawing.parent?_indexed h]
    exact h.parent?_eq_some_iff

end Forest

end SyntaxForest
