import Mathlib.Logic.Relation
import SyntaxForest.Proofs.ForestCalls

/-! Cycles of a forest.  An edge is checked against the edges to its target alone, and a
cycle does not show there: two nodes may each be made the parent of the other.  What the
checks leave to the caller is said here.  Every node is below a root exactly when no
edge was added whose target stood at or above its start, and so whenever all edges lead
to greater numbers. -/

namespace SyntaxForest.Forest

variable {forest grown : Forest}

/-- Following parents leads from one node to another, in any number of steps. -/
def Climbs (forest : Forest) : Nat → Nat → Prop :=
  Relation.ReflTransGen fun id above => forest.parent? id = some above

/-- From every node, following parents leads to a root. -/
def IsRooted (forest : Forest) : Prop :=
  ∀ node ∈ forest.nodes, ∃ root ∈ forest.roots, forest.Climbs node.id root.id

/-- Following parents leads from some node back to itself. -/
def HasCycle (forest : Forest) : Prop :=
  ∃ id above, forest.parent? id = some above ∧ forest.Climbs above id

/-! ## Ways up -/

theorem eq_of_climbs_of_parent?_eq_none {id other : Nat} (hnone : forest.parent? id = none)
    (h : forest.Climbs id other) : other = id := by
  rcases Relation.ReflTransGen.cases_head h with heq | ⟨next, hnext, -⟩
  · exact heq.symm
  · rw [hnone] at hnext
    cases hnext

/-- Whatever is reached from a node of a cycle leads back to that node. -/
theorem Climbs.back {id above other : Nat} (hparent : forest.parent? id = some above)
    (hback : forest.Climbs above id) (h : forest.Climbs id other) : forest.Climbs other id := by
  induction h with
  | refl => exact .refl
  | tail _ hstep ih =>
    -- the way back from the node before goes through its parent, and it has only one
    rcases Relation.ReflTransGen.cases_head ih with rfl | ⟨next, hnext, hrest⟩
    · obtain rfl := Option.some.inj (hparent.symm.trans hstep)
      exact hback
    · obtain rfl := Option.some.inj (hnext.symm.trans hstep)
      exact hrest

namespace WellKept

theorem climbs_lt_size (h : forest.WellKept) {id other : Nat} (hid : id < forest.size)
    (hclimbs : forest.Climbs id other) : other < forest.size := by
  induction hclimbs with
  | refl => exact hid
  | tail _ hstep _ => exact h.start_lt _ (h.parent?_eq_some_iff.mp hstep)

/-- A root is a number of the forest without a parent. -/
theorem exists_root_iff (h : forest.WellKept) {id : Nat} :
    (∃ root ∈ forest.roots, root.id = id) ↔ id < forest.size ∧ forest.parent? id = none := by
  constructor
  · rintro ⟨root, hroot, rfl⟩
    obtain ⟨hnode, hnone⟩ := List.mem_filter.mp hroot
    obtain ⟨place, hlt, hplace⟩ := Array.mem_iff_getElem.mp (Array.mem_toList_iff.mp hnode)
    refine ⟨?_, Option.isNone_iff_eq_none.mp hnone⟩
    rw [h.id_eq (hplace ▸ Array.getElem?_eq_getElem hlt)]
    exact hlt
  · rintro ⟨hlt, hnone⟩
    have hid : forest.nodes[id].id = id := h.id_eq (Array.getElem?_eq_getElem hlt)
    refine ⟨forest.nodes[id], List.mem_filter.mpr ⟨?_, ?_⟩, hid⟩
    · exact Array.mem_toList_iff.mpr (Array.getElem_mem hlt)
    · rw [hid, hnone]
      rfl

/-- It is enough to follow parents to where there is none. -/
theorem isRooted_iff (h : forest.WellKept) :
    forest.IsRooted ↔
      ∀ id < forest.size, ∃ top, forest.parent? top = none ∧ forest.Climbs id top := by
  constructor
  · intro hrooted id hid
    obtain ⟨root, hroot, hclimbs⟩ := hrooted forest.nodes[id] (Array.getElem_mem hid)
    rw [h.id_eq (Array.getElem?_eq_getElem hid)] at hclimbs
    exact ⟨root.id, (h.exists_root_iff.mp ⟨root, hroot, rfl⟩).2, hclimbs⟩
  · intro htop node hnode
    obtain ⟨place, hlt, rfl⟩ := Array.mem_iff_getElem.mp hnode
    rw [h.id_eq (Array.getElem?_eq_getElem hlt)]
    obtain ⟨top, hnone, hclimbs⟩ := htop place hlt
    obtain ⟨root, hroot, rfl⟩ :=
      h.exists_root_iff.mpr ⟨h.climbs_lt_size hlt hclimbs, hnone⟩
    exact ⟨root, hroot, hclimbs⟩

/-- No node of a cycle is below a root. -/
theorem not_hasCycle (h : forest.WellKept) (hrooted : forest.IsRooted) : ¬ forest.HasCycle := by
  rintro ⟨id, above, hparent, hback⟩
  have hid : id < forest.size := h.stop_lt _ (h.parent?_eq_some_iff.mp hparent)
  obtain ⟨top, hnone, hclimbs⟩ := h.isRooted_iff.mp hrooted id hid
  have heq : id = top := eq_of_climbs_of_parent?_eq_none hnone (.back hparent hback hclimbs)
  rw [← heq, hparent] at hnone
  cases hnone

/-- Where edges lead to greater numbers, ways up lead to smaller ones. -/
theorem not_hasCycle_of_ascending (h : forest.WellKept)
    (hascending : ∀ edge ∈ forest.edges, edge.start < edge.stop) : ¬ forest.HasCycle := by
  have hlt {id above : Nat} (hparent : forest.parent? id = some above) : above < id :=
    hascending _ (h.parent?_eq_some_iff.mp hparent)
  have hle {id other : Nat} (hclimbs : forest.Climbs id other) : other ≤ id := by
    induction hclimbs with
    | refl => exact Nat.le_refl id
    | tail _ hstep ih => exact Nat.le_trans (Nat.le_of_lt (hlt hstep)) ih
  rintro ⟨id, above, hparent, hback⟩
  have hdown := hlt hparent
  have hup := hle hback
  omega

end WellKept

/-! ## What a call does to the ways up -/

theorem parent?_addNode {node : Node} {id : Nat} (hadd : forest.addNode node = .ok (grown, id)) :
    grown.parent? = forest.parent? := by
  obtain ⟨-, -, rfl⟩ := addNode_eq_ok_iff.mp hadd
  funext id
  rw [parent?, parent?, Array.getElem?_push]
  split
  · rename_i hid
    rw [hid, Array.getElem?_eq_none (Nat.le_refl _)]
    rfl
  · rfl

theorem parent?_addEdge_of_ne {start stop : Nat} (hadd : forest.addEdge start stop = .ok grown)
    {id : Nat} (hid : id ≠ stop) : grown.parent? id = forest.parent? id := by
  obtain ⟨-, rfl⟩ := addEdge_eq_ok_iff.mp hadd
  rw [parent?, parent?, Array.getElem?_setIfInBounds_ne (Ne.symm hid)]

/-- An edge gives its target a parent, and changes no other. -/
theorem WellKept.parent?_addEdge (h : forest.WellKept) {start stop : Nat}
    (hadd : forest.addEdge start stop = .ok grown) (id : Nat) :
    grown.parent? id = if id = stop then some start else forest.parent? id := by
  split
  · rename_i hid
    obtain ⟨⟨-, hstop, -, -⟩, rfl⟩ := addEdge_eq_ok_iff.mp hadd
    rw [← h.size_parents] at hstop
    rw [hid, parent?, Array.getElem?_setIfInBounds_self_of_lt hstop]
    rfl
  · rename_i hid
    exact parent?_addEdge_of_ne hadd hid

/-- Parents stay, since a node with a parent gets no other. -/
theorem parent?_call {first : Call} (hcall : forest.call first = .ok grown) {id above : Nat}
    (h : forest.parent? id = some above) : grown.parent? id = some above := by
  rcases call_cases hcall with ⟨node, _, -, hadd⟩ | ⟨start, stop, -, hadd⟩
  · rw [parent?_addNode hadd, h]
  · rw [parent?_addEdge_of_ne hadd, h]
    rintro rfl
    obtain ⟨⟨-, -, -, hnone⟩, -⟩ := addEdge_eq_ok_iff.mp hadd
    rw [h] at hnone
    cases hnone

theorem Climbs.call {first : Call} (hcall : forest.call first = .ok grown) {id other : Nat}
    (h : forest.Climbs id other) : grown.Climbs id other :=
  Relation.ReflTransGen.mono (fun _ _ => parent?_call hcall) id other h

/-- A new way up goes through the target of the new edge. -/
theorem climbs_or_of_addEdge {start stop : Nat} (hadd : forest.addEdge start stop = .ok grown)
    {id other : Nat} (h : grown.Climbs id other) :
    forest.Climbs id other ∨ forest.Climbs id stop := by
  induction h using Relation.ReflTransGen.head_induction_on with
  | refl => exact .inl .refl
  | @head id next hstep _ ih =>
    by_cases hid : id = stop
    · rw [hid]
      exact .inr .refl
    · rw [parent?_addEdge_of_ne hadd hid] at hstep
      exact ih.imp (.head hstep) (.head hstep)

namespace WellKept

/-- A new node is a root, and the others are below what they were below. -/
theorem isRooted_addNode_iff (h : forest.WellKept) {node : Node} {id : Nat}
    (hadd : forest.addNode node = .ok (grown, id)) : grown.IsRooted ↔ forest.IsRooted := by
  have hsize : grown.size = forest.size + 1 := by
    obtain ⟨-, -, rfl⟩ := addNode_eq_ok_iff.mp hadd
    exact Array.size_push _
  have hparent := parent?_addNode hadd
  have hcall : forest.call (.addNode node) = .ok grown := map_fst_eq_ok_iff.mpr ⟨id, hadd⟩
  have hkept := h.call hcall
  have hclimbs : grown.Climbs = forest.Climbs := by rw [Climbs, Climbs, hparent]
  rw [hkept.isRooted_iff, h.isRooted_iff, hsize, hparent, hclimbs]
  constructor
  · intro htop id hid
    exact htop id (by omega)
  · intro htop id hid
    by_cases hlt : id < forest.size
    · exact htop id hlt
    · refine ⟨id, ?_, .refl⟩
      cases hsome : forest.parent? id with
      | none => rfl
      | some above => exact absurd (h.stop_lt _ (h.parent?_eq_some_iff.mp hsome)) hlt

section

variable (h : forest.WellKept) {start stop : Nat} (hadd : forest.addEdge start stop = .ok grown)

include h hadd

/-- A way up that passes a new edge ended at its target before. -/
theorem isRooted_of_addEdge (hrooted : grown.IsRooted) : forest.IsRooted := by
  have hcall : forest.call (.addEdge start stop) = .ok grown := hadd
  obtain ⟨⟨-, -, -, hnone⟩, hgrown⟩ := addEdge_eq_ok_iff.mp hadd
  have hsize : grown.size = forest.size := by rw [hgrown]; rfl
  rw [h.isRooted_iff]
  intro id hid
  obtain ⟨top, htop, hclimbs⟩ := (h.call hcall).isRooted_iff.mp hrooted id (hsize ▸ hid)
  rcases climbs_or_of_addEdge hadd hclimbs with hold | hthrough
  · refine ⟨top, ?_, hold⟩
    rw [h.parent?_addEdge hadd] at htop
    split at htop
    · cases htop
    · exact htop
  · exact ⟨stop, hnone, hthrough⟩

/-- A way up that ended elsewhere than at the target of a new edge ends there still, and
one that ended at the target goes on from the start. -/
theorem isRooted_addEdge (hrooted : forest.IsRooted) (hopen : ¬ forest.Climbs start stop) :
    grown.IsRooted := by
  have hcall : forest.call (.addEdge start stop) = .ok grown := hadd
  have hparent := h.parent?_addEdge hadd
  obtain ⟨⟨hstart, -, -, -⟩, hgrown⟩ := addEdge_eq_ok_iff.mp hadd
  have hsize : grown.size = forest.size := by rw [hgrown]; rfl
  have hends {id top : Nat} (hne : top ≠ stop) (htop : forest.parent? top = none)
      (hclimbs : forest.Climbs id top) :
      ∃ top, grown.parent? top = none ∧ grown.Climbs id top :=
    ⟨top, by rw [hparent, if_neg hne, htop], hclimbs.call hcall⟩
  rw [h.isRooted_iff] at hrooted
  rw [(h.call hcall).isRooted_iff, hsize]
  intro id hid
  obtain ⟨top, htop, hclimbs⟩ := hrooted id hid
  by_cases hne : top = stop
  · -- the way from the start does not come back to the target
    obtain ⟨last, hlast, hfar⟩ := hrooted start hstart
    have hlast' : last ≠ stop := by
      rintro rfl
      exact hopen hfar
    obtain ⟨found, hfound, hfar'⟩ := hends hlast' hlast hfar
    have hstop : grown.parent? stop = some start := by rw [hparent, if_pos rfl]
    rw [hne] at hclimbs
    exact ⟨found, hfound, (hclimbs.call hcall).trans (.head hstop hfar')⟩
  · exact hends hne htop hclimbs

/-- **An edge keeps the forest rooted unless it closes a cycle**, that is, unless its
target stands at or above its start. -/
theorem isRooted_addEdge_iff :
    grown.IsRooted ↔ forest.IsRooted ∧ ¬ forest.Climbs start stop := by
  refine ⟨fun hrooted => ⟨h.isRooted_of_addEdge hadd hrooted, fun hclimbs => ?_⟩,
    fun hboth => h.isRooted_addEdge hadd hboth.1 hboth.2⟩
  have hcall : forest.call (.addEdge start stop) = .ok grown := hadd
  have hstop : grown.parent? stop = some start := by rw [h.parent?_addEdge hadd, if_pos rfl]
  exact (h.call hcall).not_hasCycle hrooted ⟨stop, start, hstop, hclimbs.call hcall⟩

end

end WellKept

/-! ## Whole runs -/

/-- The call adds an edge whose target stands at or above its start. -/
def ClosesCycle (forest : Forest) : Call → Prop
  | .addNode _ => False
  | .addEdge start stop => forest.Climbs start stop

theorem WellKept.isRooted_call_iff (h : forest.WellKept) {first : Call}
    (hcall : forest.call first = .ok grown) :
    grown.IsRooted ↔ forest.IsRooted ∧ ¬ forest.ClosesCycle first := by
  rcases call_cases hcall with ⟨node, id, rfl, hadd⟩ | ⟨start, stop, rfl, hadd⟩
  · rw [h.isRooted_addNode_iff hadd, ClosesCycle, not_false_eq_true, and_true]
  · exact h.isRooted_addEdge_iff hadd

/-- No call that was accepted in a run closed a cycle. -/
def NeverCloses (forest : Forest) (calls : List Call) : Prop :=
  ∀ before call after grown, calls = before ++ call :: after →
    (forest.run before).call call = .ok grown → ¬ (forest.run before).ClosesCycle call

theorem neverCloses_nil (forest : Forest) : forest.NeverCloses [] := by
  intro before call after grown hcalls
  simp at hcalls

theorem neverCloses_cons_iff {first : Call} {calls : List Call} :
    forest.NeverCloses (first :: calls) ↔
      (∀ grown, forest.call first = .ok grown → ¬ forest.ClosesCycle first) ∧
        (forest.run [first]).NeverCloses calls := by
  have hrun (rest : List Call) : forest.run (first :: rest) = (forest.run [first]).run rest := by
    rw [run, run]
    split <;> rfl
  constructor
  · intro hnever
    refine ⟨fun grown hcall => hnever [] first calls grown rfl hcall, ?_⟩
    intro before call after grown hcalls hcall
    rw [← hrun] at hcall ⊢
    exact hnever (first :: before) call after grown (by rw [hcalls, List.cons_append]) hcall
  · rintro ⟨hfirst, hrest⟩ before call after grown hcalls hcall
    cases before with
    | nil =>
      obtain ⟨rfl, -⟩ := List.cons.inj hcalls
      exact hfirst grown hcall
    | cons other before =>
      obtain ⟨rfl, hlater⟩ := List.cons.inj hcalls
      rw [hrun] at hcall ⊢
      exact hrest before call after grown hlater hcall

theorem WellKept.isRooted_run_iff (h : forest.WellKept) (calls : List Call) :
    (forest.run calls).IsRooted ↔ forest.IsRooted ∧ forest.NeverCloses calls := by
  induction calls generalizing forest with
  | nil => exact (and_iff_left (neverCloses_nil forest)).symm
  | cons first calls ih =>
    rw [neverCloses_cons_iff, Forest.run, Forest.run]
    cases hcall : forest.call first with
    | ok grown =>
      have hgrown : (∀ other, Except.ok (ε := Fault) grown = .ok other →
          ¬ forest.ClosesCycle first) ↔ ¬ forest.ClosesCycle first :=
        ⟨fun hall => hall grown rfl, fun hnot _ _ => hnot⟩
      rw [hgrown, ← and_assoc, ← h.isRooted_call_iff hcall]
      exact ih (h.call hcall)
    | error fault =>
      have hrefused : ∀ other, Except.error (α := Forest) fault = .ok other →
          ¬ forest.ClosesCycle first := by
        intro other hother
        cases hother
      rw [and_iff_right hrefused]
      exact ih h

theorem isRooted_empty : IsRooted {} := by
  intro node hnode
  simp at hnode

/-- A cycle stays, whatever is called. -/
theorem HasCycle.call {first : Call} (h : forest.HasCycle)
    (hcall : forest.call first = .ok grown) : grown.HasCycle := by
  obtain ⟨id, above, hparent, hback⟩ := h
  exact ⟨id, above, parent?_call hcall hparent, hback.call hcall⟩

/-- The edge that closes a cycle is part of it. -/
theorem WellKept.hasCycle_of_closesCycle (h : forest.WellKept) {first : Call}
    (hcall : forest.call first = .ok grown) (hcloses : forest.ClosesCycle first) :
    grown.HasCycle := by
  cases first with
  | addNode node => exact hcloses.elim
  | addEdge start stop =>
    refine ⟨stop, start, ?_, Climbs.call hcall hcloses⟩
    rw [h.parent?_addEdge hcall, if_pos rfl]

theorem WellKept.isRooted_or_hasCycle_run (h : forest.WellKept)
    (hforest : forest.IsRooted ∨ forest.HasCycle) (calls : List Call) :
    (forest.run calls).IsRooted ∨ (forest.run calls).HasCycle := by
  induction calls generalizing forest with
  | nil => exact hforest
  | cons first calls ih =>
    rw [Forest.run]
    split
    · rename_i grown hcall
      apply ih (h.call hcall)
      rcases hforest with hrooted | hcycle
      · by_cases hcloses : forest.ClosesCycle first
        · exact .inr (h.hasCycle_of_closesCycle hcall hcloses)
        · exact .inl ((h.isRooted_call_iff hcall).mpr ⟨hrooted, hcloses⟩)
      · exact .inr (hcycle.call hcall)
    · exact ih h hforest

/-- **What the checks of a forest leave open.**  After any calls on the empty forest,
every node is below a root exactly when no call that was accepted added an edge whose
target stood at or above its start, and exactly when no node is above itself.  Edges
that lead to greater numbers, as those of a drawn tree do, are safe in any order. -/
theorem run_isRooted_iff (calls : List Call) :
    let forest := run {} calls
    (forest.IsRooted ↔ NeverCloses {} calls) ∧
    (forest.IsRooted ↔ ¬ forest.HasCycle) ∧
    ((∀ edge ∈ forest.edges, edge.start < edge.stop) → forest.IsRooted) := by
  have hkept := wellKept_empty.run calls
  have hcycle : (run {} calls).IsRooted ↔ ¬ (run {} calls).HasCycle := by
    constructor
    · intro hrooted
      exact hkept.not_hasCycle hrooted
    · intro hnone
      have hcases := wellKept_empty.isRooted_or_hasCycle_run (.inl isRooted_empty) calls
      exact hcases.resolve_right hnone
  refine ⟨?_, hcycle, ?_⟩
  · rw [wellKept_empty.isRooted_run_iff, and_iff_right isRooted_empty]
  · intro hascending
    exact hcycle.mpr (hkept.not_hasCycle_of_ascending hascending)

/-- A node of a block, drawn for a tree node. -/
def blockOf (source : Nat) : Node where
  id := 0
  source
  category := .block
  label := ""
  shape := .box
  color := "white"
  filled := false
  size := ⟨2, 2⟩

/-- A chain of three nodes, tied together from below. -/
def chainOfThree : List Call :=
  [.addNode (blockOf 7), .addNode (blockOf 4), .addNode (blockOf 9), .addEdge 1 2, .addEdge 0 1]

theorem run_isRooted_iff_chainOfThree :
    (∀ edge ∈ (run {} chainOfThree).edges, edge.start < edge.stop) ∧
      (run {} chainOfThree).IsRooted ∧
      ¬ (run {} (chainOfThree.take 4)).Climbs 0 1 ∧ ¬ (run {} chainOfThree).HasCycle := by
  obtain ⟨hnever, hcycle, hascending⟩ := run_isRooted_iff chainOfThree
  have hedges : ∀ edge ∈ (run {} chainOfThree).edges, edge.start < edge.stop := by
    decide +kernel
  have hlast : (run {} (chainOfThree.take 4)).call (.addEdge 0 1) =
      .ok (run {} chainOfThree) := by
    decide +kernel
  have hrooted := hascending hedges
  refine ⟨hedges, hrooted, ?_, hcycle.mp hrooted⟩
  exact hnever.mp hrooted (chainOfThree.take 4) (.addEdge 0 1) [] _ rfl hlast

/-- Two nodes, each made the parent of the other. -/
def mutualParents : List Call :=
  [.addNode (blockOf 0), .addNode (blockOf 1), .addEdge 0 1, .addEdge 1 0]

/-- All calls are accepted, and no root is left. -/
theorem not_isRooted_mutualParents :
    (run {} mutualParents).nodes.size = 2 ∧
      (run {} mutualParents).edges = #[⟨0, 1⟩, ⟨1, 0⟩] ∧
      (run {} mutualParents).roots = [] ∧ ¬ (run {} mutualParents).IsRooted := by
  have hroots : (run {} mutualParents).roots = [] := by decide +kernel
  have hsize : (run {} mutualParents).nodes.size = 2 := by decide +kernel
  refine ⟨hsize, by decide +kernel, hroots, ?_⟩
  intro hrooted
  have hlt : 0 < (run {} mutualParents).nodes.size := by rw [hsize]; decide
  obtain ⟨root, hroot, -⟩ := hrooted _ (Array.getElem_mem hlt)
  rw [hroots] at hroot
  cases hroot

end SyntaxForest.Forest
