import Mathlib.Data.List.Chain
import SyntaxForest.Proofs.ForestPaths

/-! Two style sheets on one tree.  Where the first includes fewer nodes than the
second, its forest is that of the second with the further nodes contracted: the
drawn nodes keep their order, and an edge of the first forest is a path of the
second that meets only nodes the first leaves out on its way. -/

namespace SyntaxForest

/-- Clearing visit flags, or leaving the expressions out, takes nodes away and adds
none. -/
theorem StyleSheet.includes_mono {coarse fine : StyleSheet} {tree : Tree}
    (hvisit : ∀ category, (coarse.style category).visit = true → (fine.style category).visit = true)
    (hexpressions : coarse.includeExpressions = true → fine.includeExpressions = true) (id : Nat)
    (hin : coarse.includes tree id = true) : fine.includes tree id = true := by
  unfold includes at hin ⊢
  obtain ⟨node, hnode, hdecision⟩ := (Option.any_eq_true _ _).mp hin
  refine (Option.any_eq_true _ _).mpr ⟨node, hnode, ?_⟩
  -- where the node stands is judged alike by both sheets
  unfold decisionAt at hdecision ⊢
  split at hdecision
  · cases hdecision
  · rename_i hplace
    rw [if_neg hplace]
    simp only [decision, Bool.and_eq_true, Bool.not_eq_true', Bool.and_eq_false_iff,
      Bool.not_eq_false'] at hdecision ⊢
    obtain ⟨⟨hvisitable, hon⟩, hexpression⟩ := hdecision
    exact ⟨⟨hvisitable, hvisit _ hon⟩, hexpression.imp_right hexpressions⟩

namespace Forest
variable {tree : Tree} {coarse fine : StyleSheet}

/-- An edge leads from the drawn node of the tree node `u` to that of `v`. -/
def Leads (forest : Forest) (u v : Nat) : Prop :=
  ∃ i j, forest.drawn? u = some i ∧ forest.drawn? v = some j ∧ forest.IsEdge i j

theorem mem_drawnSources_iff (h : tree.Linked) {sheet : StyleSheet} {id : Nat} :
    id ∈ drawnSources sheet tree ↔ id < tree.size ∧ sheet.includes tree id = true := by
  rw [drawnSources, mem_sources, Tree.mem_preorder_root_iff h]

theorem drawn?_spliced_eq_none_iff (h : tree.Linked) {sheet : StyleSheet} {id : Nat} :
    (spliced sheet tree).drawn? id = none ↔ id ∉ drawnSources sheet tree := by
  rw [drawn?_spliced h, drawn?_splice (topDown_preorder h).lt_size, ← drawnSources]
  split <;> simp [*]

/-- Told by tree nodes, an edge leads from the nearest included node above. -/
theorem leads_spliced_iff (h : tree.Linked) {sheet : StyleSheet} {u v : Nat} :
    (spliced sheet tree).Leads u v ↔
      v ∈ drawnSources sheet tree ∧ sheet.nearest? tree v = some u := by
  constructor
  · rintro ⟨i, j, hu, hv, hedge⟩
    obtain ⟨above, id, hi, hj, hnear⟩ := (isEdge_spliced_iff h).mp hedge
    obtain rfl : above = u := Option.some.inj (hi.symm.trans ((drawn?_spliced_iff h).mp hu))
    obtain rfl : id = v := Option.some.inj (hj.symm.trans ((drawn?_spliced_iff h).mp hv))
    exact ⟨List.mem_of_getElem? hj, hnear⟩
  · rintro ⟨hv, hnear⟩
    obtain ⟨hin, habove, _⟩ := (StyleSheet.nearest?_eq_some_iff h).mp hnear
    obtain ⟨i, hi⟩ := exists_place h (Nat.lt_trans (habove.lt h) habove.lt_size) hin
    obtain ⟨j, hj⟩ := List.mem_iff_getElem?.mp hv
    exact ⟨i, j, (drawn?_spliced_iff h).mpr hi, (drawn?_spliced_iff h).mpr hj,
      (isEdge_spliced_iff h).mpr ⟨u, v, hi, hj, hnear⟩⟩

/-! ## From an edge to a path -/

/-- A node that only the fine sheet draws does not stop the way up of the coarse
one. -/
theorem nearest?_of_between (h : tree.Linked) {u v w : Nat}
    (hcoarse : coarse.nearest? tree v = some u) (huw : tree.Above u w) (hwv : tree.Above w v) :
    coarse.includes tree w = false ∧ coarse.nearest? tree w = some u := by
  obtain ⟨hin, _, hmost⟩ := (StyleSheet.nearest?_eq_some_iff h).mp hcoarse
  constructor
  · refine Bool.eq_false_iff.mpr fun hw => ?_
    have hle := (hmost w hw hwv).le h
    have hlt := huw.lt h
    omega
  · refine (StyleSheet.nearest?_eq_some_iff h).mpr ⟨hin, huw, ?_⟩
    intro other hother habove
    exact hmost other hother (habove.trans hwv)

/-- The way up from a node to the nearest node of the coarse sheet, over the nodes of
the fine one. -/
theorem exists_path_of_nearest? (h : tree.Linked)
    (hsub : ∀ id, coarse.includes tree id = true → fine.includes tree id = true) {u v : Nat}
    (hv : v ∈ drawnSources fine tree) (hcoarse : coarse.nearest? tree v = some u) :
    ∃ interior : List Nat, List.IsChain (spliced fine tree).Leads (u :: interior ++ [v]) ∧
      ∀ w ∈ interior, w ∉ drawnSources coarse tree := by
  induction v using Nat.strongRecOn with
  | ind v ih =>
    obtain ⟨hin, habove, _⟩ := (StyleSheet.nearest?_eq_some_iff h).mp hcoarse
    obtain ⟨w, hfine, hle⟩ := exists_nearest? h habove (hsub u hin)
    obtain ⟨hwin, hwv, _⟩ := (StyleSheet.nearest?_eq_some_iff h).mp hfine
    have hlast : (spliced fine tree).Leads w v := (leads_spliced_iff h).mpr ⟨hv, hfine⟩
    rcases Tree.atOrAbove_iff.mp hle with rfl | huw
    · exact ⟨[], by simpa using hlast, by simp⟩
    · -- `w` is left out by the coarse sheet, and the path goes on from it
      obtain ⟨hout, hnear⟩ := nearest?_of_between h hcoarse huw hwv
      have hw : w ∈ drawnSources fine tree :=
        (mem_drawnSources_iff h).mpr ⟨Nat.lt_trans (hwv.lt h) hwv.lt_size, hwin⟩
      obtain ⟨interior, hchain, hfree⟩ := ih w (hwv.lt h) hw hnear
      refine ⟨interior ++ [w], ?_, ?_⟩
      · rw [← List.cons_append, List.append_assoc]
        exact List.isChain_split.mpr ⟨hchain, by simpa using hlast⟩
      · intro x hx
        rcases List.mem_append.mp hx with hx | hx
        · exact hfree x hx
        · obtain rfl := List.mem_singleton.mp hx
          intro hmem
          have hxin := ((mem_drawnSources_iff h).mp hmem).2
          rw [hout] at hxin
          cases hxin

/-! ## From a path to an edge -/

/-- Along a path of the fine forest with nothing coarse in between, what the coarse
sheet includes above the end is at or above the start. -/
theorem above_of_path (h : tree.Linked)
    (hsub : ∀ id, coarse.includes tree id = true → fine.includes tree id = true) {u v : Nat}
    {interior : List Nat} (hchain : List.IsChain (spliced fine tree).Leads (u :: interior ++ [v]))
    (hfree : ∀ w ∈ interior, w ∉ drawnSources coarse tree) :
    tree.Above u v ∧ ∀ other, coarse.includes tree other = true → tree.Above other v →
      tree.AtOrAbove other u := by
  induction interior generalizing u with
  | nil =>
    obtain ⟨_, hnear⟩ := (leads_spliced_iff h).mp (List.isChain_pair.mp hchain)
    obtain ⟨_, habove, hmost⟩ := (StyleSheet.nearest?_eq_some_iff h).mp hnear
    exact ⟨habove, fun other hother => hmost other (hsub other hother)⟩
  | cons w interior ih =>
    obtain ⟨hfirst, hrest⟩ := List.isChain_cons_cons.mp hchain
    obtain ⟨hwv, hmost⟩ := ih hrest fun x hx => hfree x (List.mem_cons_of_mem _ hx)
    obtain ⟨hw, hnear⟩ := (leads_spliced_iff h).mp hfirst
    obtain ⟨_, huw, hmost'⟩ := (StyleSheet.nearest?_eq_some_iff h).mp hnear
    refine ⟨huw.trans hwv, fun other hother habove => ?_⟩
    rcases Tree.atOrAbove_iff.mp (hmost other hother habove) with rfl | hother'
    · -- the other node would be `w`, which is not coarse
      have hsize := ((mem_drawnSources_iff h).mp hw).1
      exact absurd ((mem_drawnSources_iff h).mpr ⟨hsize, hother⟩) (hfree w List.mem_cons_self)
    · exact hmost' other (hsub other hother) hother'

theorem nearest?_of_path (h : tree.Linked)
    (hsub : ∀ id, coarse.includes tree id = true → fine.includes tree id = true) {u v : Nat}
    (hu : u ∈ drawnSources coarse tree) {interior : List Nat}
    (hchain : List.IsChain (spliced fine tree).Leads (u :: interior ++ [v]))
    (hfree : ∀ w ∈ interior, w ∉ drawnSources coarse tree) :
    coarse.nearest? tree v = some u := by
  obtain ⟨habove, hmost⟩ := above_of_path h hsub hchain hfree
  exact (StyleSheet.nearest?_eq_some_iff h).mpr ⟨((mem_drawnSources_iff h).mp hu).2, habove, hmost⟩

theorem drawnSources_filter
    (hsub : ∀ id, coarse.includes tree id = true → fine.includes tree id = true) :
    drawnSources coarse tree = (drawnSources fine tree).filter (coarse.includes tree) := by
  rw [drawnSources, drawnSources, sources, sources, List.filter_filter]
  refine List.filter_congr fun id _ => ?_
  cases hin : coarse.includes tree id with
  | false => rfl
  | true => simp [hsub id hin]

theorem map_source_spliced (h : tree.Linked) (sheet : StyleSheet) :
    (spliced sheet tree).nodes.toList.map Node.source = drawnSources sheet tree :=
  map_source_splice (topDown_preorder h).lt_size

/-- **Leaving out more is contraction.**  Where every node of the coarse sheet is one
of the fine sheet, the forest of the coarse sheet draws those of the fine forest's
nodes that it includes, in the same order, and has an edge between two of them
exactly where a path of the fine forest leads from the one to the other with no
node of the coarse forest in between. -/
theorem build_contracts (h : tree.Reachable)
    (hsub : ∀ id, coarse.includes tree id = true → fine.includes tree id = true) :
    ∃ small large, build coarse tree = .ok small ∧ build fine tree = .ok large ∧
      small.nodes.toList.map Node.source =
        (large.nodes.toList.map Node.source).filter (coarse.includes tree) ∧
      ∀ u v, (small.drawn? u).isSome = true → (small.drawn? v).isSome = true →
        (small.Leads u v ↔
          ∃ interior : List Nat, List.IsChain large.Leads (u :: interior ++ [v]) ∧
            ∀ w ∈ interior, small.drawn? w = none) := by
  have hl := h.linked
  refine ⟨_, _, build_eq_spliced hl coarse, build_eq_spliced hl fine, ?_, ?_⟩
  · rw [map_source_spliced hl, map_source_spliced hl]
    exact drawnSources_filter hsub
  · intro u v hu hv
    have hdrawn {id : Nat} (hid : ((spliced coarse tree).drawn? id).isSome = true) :
        id ∈ drawnSources coarse tree := by
      obtain ⟨place, hplace⟩ := Option.isSome_iff_exists.mp hid
      exact List.mem_of_getElem? ((drawn?_spliced_iff hl).mp hplace)
    simp only [drawn?_spliced_eq_none_iff hl]
    rw [leads_spliced_iff hl]
    constructor
    · rintro ⟨_, hnear⟩
      refine exists_path_of_nearest? hl hsub ?_ hnear
      obtain ⟨hsize, hin⟩ := (mem_drawnSources_iff hl).mp (hdrawn hv)
      exact (mem_drawnSources_iff hl).mpr ⟨hsize, hsub v hin⟩
    · rintro ⟨interior, hchain, hfree⟩
      exact ⟨hdrawn hv, nearest?_of_path hl hsub (hdrawn hu) hchain hfree⟩

/-- Blocks are drawn as well. -/
def methodsBlocksAndReturns : StyleSheet :=
  StyleSheet.plain.visiting [.methodDeclaration, .block, .returnStatement]

/-- The edge from a method to its return goes over the block when blocks are
drawn. -/
theorem build_contracts_twoMethods :
    twoMethods.Reachable ∧
    (∀ id, methodsAndReturns.includes twoMethods id = true →
      methodsBlocksAndReturns.includes twoMethods id = true) ∧
    ∃ small large, build methodsAndReturns twoMethods = .ok small ∧
      build methodsBlocksAndReturns twoMethods = .ok large ∧
      small.nodes.toList.map Node.source = [1, 4, 2] ∧
      large.nodes.toList.map Node.source = [1, 3, 4, 2] ∧
      small.Leads 1 4 ∧ ¬ large.Leads 1 4 ∧
      ∃ interior : List Nat, List.IsChain large.Leads (1 :: interior ++ [4]) ∧
        ∀ w ∈ interior, small.drawn? w = none := by
  have hsub : ∀ id, methodsAndReturns.includes twoMethods id = true →
      methodsBlocksAndReturns.includes twoMethods id = true := by
    refine StyleSheet.includes_mono (fun category => ?_) fun hexpressions => hexpressions
    cases category <;> decide
  obtain ⟨small, large, hsmall, hlarge, hsources, hedges⟩ :=
    build_contracts twoMethods_reachable hsub
  have hfine : (build methodsBlocksAndReturns twoMethods).toOption.map
      (fun forest => (forest.nodes.toList.map Node.source, forest.drawn? 1, forest.drawn? 4,
        forest.edges)) = some ([1, 3, 4, 2], some 0, some 2, #[⟨0, 1⟩, ⟨1, 2⟩]) := by
    decide +kernel
  have hcoarse : (build methodsAndReturns twoMethods).toOption.map
      (fun forest => (forest.drawn? 1, forest.drawn? 4, forest.edges)) =
        some (some 0, some 1, #[⟨0, 1⟩]) := by
    decide +kernel
  rw [hlarge] at hfine
  rw [hsmall] at hcoarse
  simp only [Except.toOption, Option.map_some, Option.some.injEq, Prod.mk.injEq] at hfine hcoarse
  obtain ⟨hall, hmethod, hreturn, hpaths⟩ := hfine
  obtain ⟨hmethod', hreturn', hlinks⟩ := hcoarse
  have hleads : small.Leads 1 4 := by
    refine ⟨0, 1, hmethod', hreturn', ?_⟩
    rw [IsEdge, hlinks]
    exact Array.mem_singleton.mpr rfl
  have hover : ¬ large.Leads 1 4 := by
    rintro ⟨i, j, hi, hj, hedge⟩
    obtain rfl : 0 = i := Option.some.inj (hmethod.symm.trans hi)
    obtain rfl : 2 = j := Option.some.inj (hreturn.symm.trans hj)
    rw [IsEdge, hpaths] at hedge
    exact absurd hedge (by decide +kernel)
  have hpath := (hedges 1 4 (by rw [hmethod']; rfl) (by rw [hreturn']; rfl)).mp hleads
  refine ⟨twoMethods_reachable, hsub, small, large, hsmall, hlarge, ?_, hall, hleads, hover, hpath⟩
  rw [hsources, hall]
  decide +kernel

end Forest

end SyntaxForest
