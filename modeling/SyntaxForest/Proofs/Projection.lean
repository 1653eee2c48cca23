import Mathlib.Data.List.Sort
import SyntaxForest.Java.Projection
import SyntaxForest.Proofs.ParseOrder
import SyntaxForest.Proofs.Splice

/-! The tree of a Java source against the document order of its parse tree.  The
nodes of the tree are the entries of the listing of the container, under the same
numbers: what is stored of an entry is read off its parse tree node, and its
parent is the entry whose way is one step shorter.  So the numbers are already in
document order, and whatever is drawn is drawn in the order of its numbers.

The tree is also what a loop over a stack of pending parse trees grows by the
steps that trees offer, one field after the other.  No step is refused, and no
field is set twice. -/

namespace SyntaxForest

namespace Tree
variable {tree : Tree}

theorem ext_get? {first second : Tree} (h : ∀ id, first.get? id = second.get? id) :
    first = second := by
  obtain ⟨nodes⟩ := first
  obtain ⟨nodes'⟩ := second
  exact congrArg Tree.mk (Array.ext_getElem? h)

/-- The node that was added last can be changed before it is added as well. -/
theorem modify_add {parent : Nat} (hp : parent < tree.size) (node : Node) (change : Node → Node) :
    (tree.add parent node).modify tree.size change = .ok (tree.add parent (change node)) := by
  rw [modify, if_pos (by rw [size_add]; omega)]
  refine congrArg Except.ok (ext_get? fun id => ?_)
  rw [get?_add hp, get?, Array.getElem?_modify, ← get?, get?_add hp]
  by_cases hid : tree.size = id
  · simp [hid]
  · simp [hid, Ne.symm hid]

theorem modify_root (node : Node) (change : Node → Node) :
    modify ⟨#[node]⟩ root change = .ok ⟨#[change node]⟩ := by
  rfl

theorem children_pairwise (h : tree.Linked) (id : Nat) : (tree.children id).Pairwise (· < ·) := by
  rw [h.children_eq]
  exact List.pairwise_lt_range.filter _

/-- Where all that is at or below a node has smaller numbers than the siblings that
come after it, document order is the order of the numbers. -/
theorem preorder_pairwise_lt (h : tree.Linked)
    (hblocks : ∀ {parent c d x}, tree.IsParent parent c → tree.IsParent parent d → c < d →
      tree.AtOrAbove c x → x < d) (id : Nat) : (tree.preorder id).Pairwise (· < ·) := by
  induction id using h.induction_below with
  | step id ih =>
    rw [preorder_eq h]
    refine List.pairwise_cons.mpr ⟨?_, List.pairwise_flatMap.mpr ⟨ih, ?_⟩⟩
    · intro x hx
      obtain ⟨child, hc, hin⟩ := List.mem_flatMap.mp hx
      exact Nat.lt_of_lt_of_le (lt_of_mem_children h hc) (((mem_preorder_iff h).mp hin).le h)
    · refine (children_pairwise h id).imp_of_mem fun {c d} hc hd hlt => ?_
      intro x hx y hy
      have hxd := hblocks ((mem_children_iff h).mp hc) ((mem_children_iff h).mp hd) hlt
        ((mem_preorder_iff h).mp hx)
      exact Nat.lt_of_lt_of_le hxd (((mem_preorder_iff h).mp hy).le h)

theorem preorder_eq_range (h : tree.Linked) (hsorted : (tree.preorder root).Pairwise (· < ·)) :
    tree.preorder root = List.range tree.size := by
  refine hsorted.eq_of_mem_iff List.pairwise_lt_range fun id => ?_
  rw [mem_preorder_root_iff h, List.mem_range]

end Tree

/-! ## Fields that are set one after the other -/

namespace Tree.Node

/-- Fields with names of their own come to stand in the order in which they are set. -/
theorem foldl_setEntry {entries more : List (Field × FieldValue)}
    (h : ((entries ++ more).map Prod.fst).Nodup) :
    more.foldl (fun entries entry => setEntry entry.1 entry.2 entries) entries =
      entries ++ more := by
  induction more generalizing entries with
  | nil => simp
  | cons entry more ih =>
    have hfresh : entry.1 ∉ entries.map Prod.fst := by
      intro hmem
      rw [List.map_append, List.nodup_append] at h
      exact h.2.2 entry.1 hmem entry.1 (by simp) rfl
    have hnext : ((entries ++ [(entry.1, entry.2)] ++ more).map Prod.fst).Nodup := by simpa using h
    rw [List.foldl_cons, NameMap.setEntry_of_notMem hfresh, ih hnext]
    simp

end Tree.Node

namespace Java.Source
variable {source : Source}

theorem mem_map_fst_textField {field other : Field} {text : Option String} :
    other ∈ (textField field text).map Prod.fst ↔ text.isSome = true ∧ other = field := by
  cases text <;> simp [textField]

theorem nodup_textField (field : Field) (text : Option String) :
    ((textField field text).map Prod.fst).Nodup := by
  cases text <;> simp [textField]

/-- No category reads a field twice. -/
theorem fields_nodup (source : Source) (category : Category) (tree : ParseTree) :
    ((source.fields category tree).map Prod.fst).Nodup := by
  unfold fields
  split <;>
    simp +contextual [-List.mem_map, List.nodup_append, mem_map_fst_textField, nodup_textField,
      or_imp]

/-! ## Growing by steps -/

/-- Sets the lines of a node, then its fields in order. -/
def attach (source : Source) (id : Nat) (category : Category) (tree : ParseTree) (grown : Tree) :
    Except Tree.Fault Tree := do
  let grown ← grown.setSpan id (source.span tree)
  (source.fields category tree).foldlM (fun grown entry => grown.setField id entry.1 entry.2) grown

/-- A parse tree that is still to be added, with the kind and the number of its
parent. -/
structure Pending where
  above : String
  parent : Nat
  tree : ParseTree

/-- The parts of a parse tree list fewer entries than the parse tree. -/
theorem length_flatMap_parts (top : Pending) (pending : List Pending) (id : Nat) :
    ((top.tree.parts.map (Pending.mk top.tree.kind id) ++ pending).flatMap
        fun each => each.tree.listing).length <
      ((top :: pending).flatMap fun each => each.tree.listing).length := by
  simp only [List.flatMap_append, List.flatMap_map, List.flatMap_cons, List.length_append,
    ParseTree.length_listing top.tree]
  omega

/-- Takes the pending parse trees from the top: each one is added, and its parts take
its place. -/
def growFrom (source : Source) (pending : List Pending) (grown : Tree) : Except Tree.Fault Tree :=
  match pending with
  | [] => .ok grown
  | top :: pending => do
    let category := top.tree.category (some top.above)
    let (grown, id) ← grown.push category top.parent
    let grown ← source.attach id category top.tree grown
    source.growFrom (top.tree.parts.map (Pending.mk top.tree.kind id) ++ pending) grown
termination_by (pending.flatMap fun each => each.tree.listing).length
decreasing_by exact length_flatMap_parts top pending id

/-- The tree of a source, grown step by step. -/
def grow (source : Source) : Except Tree.Fault Tree := do
  let container := source.container.2
  let root ← source.attach Tree.root source.containerCategory container
    (Tree.singleton source.containerCategory)
  source.growFrom (container.parts.map (Pending.mk container.kind Tree.root)) root

theorem foldlM_setField {put : Tree.Node → Tree} {id : Nat}
    (hput : ∀ node change, (put node).modify id change = .ok (put (change node)))
    (entries : List (Field × FieldValue)) (node : Tree.Node) :
    entries.foldlM (fun grown entry => grown.setField id entry.1 entry.2) (put node) =
      .ok (put { node with
        fields := entries.foldl (fun fields entry => setEntry entry.1 entry.2 fields)
          node.fields }) := by
  induction entries generalizing node with
  | nil => rfl
  | cons entry entries ih =>
    rw [List.foldlM_cons, Tree.setField, hput]
    exact ih _

/-- Where a node can be changed before it is put in place, its lines and fields can be
given before as well. -/
theorem attach_put {put : Tree.Node → Tree} {id : Nat}
    (hput : ∀ node change, (put node).modify id change = .ok (put (change node)))
    (category : Category) (parent : Option Nat) (tree : ParseTree) :
    source.attach id category tree (put { category, parent }) =
      .ok (put (source.treeNode category parent tree)) := by
  have hfields : (source.fields category tree).foldl
      (fun fields entry => setEntry entry.1 entry.2 fields) [] =
        source.fields category tree :=
    Tree.Node.foldl_setEntry (source.fields_nodup category tree)
  rw [attach, Tree.setSpan, hput]
  refine (foldlM_setField hput _ _).trans ?_
  dsimp only
  rw [hfields]
  rfl

theorem reachable_foldlM_setField {grown changed : Tree} {id : Nat}
    {entries : List (Field × FieldValue)} (h : grown.Reachable)
    (hset : entries.foldlM (fun grown entry => grown.setField id entry.1 entry.2) grown =
      .ok changed) : changed.Reachable := by
  induction entries generalizing grown with
  | nil =>
    obtain rfl := Except.ok.inj hset
    exact h
  | cons entry entries ih =>
    rw [List.foldlM_cons] at hset
    cases hstep : grown.setField id entry.1 entry.2 with
    | error fault =>
      rw [hstep] at hset
      cases hset
    | ok next =>
      rw [hstep] at hset
      exact ih (h.setField hstep) hset

theorem reachable_attach {grown changed : Tree} {id : Nat} {category : Category} {tree : ParseTree}
    (h : grown.Reachable) (hattach : source.attach id category tree grown = .ok changed) :
    changed.Reachable := by
  rw [Source.attach] at hattach
  cases hspan : grown.setSpan id (source.span tree) with
  | error fault =>
    rw [hspan] at hattach
    cases hattach
  | ok next =>
    rw [hspan] at hattach
    exact reachable_foldlM_setField (h.setSpan hspan) hattach

/-- Adds a pending parse tree with all that is below it. -/
def plantPending (source : Source) (grown : Tree) (each : Pending) : Tree :=
  source.plant each.above each.parent grown each.tree

theorem plantAll_eq_foldl (above : String) (parent : Nat) (grown : Tree) (trees : List ParseTree) :
    source.plantAll above parent grown trees =
      ((trees.filter ParseTree.isPart).map (Pending.mk above parent)).foldl source.plantPending
        grown := by
  induction trees generalizing grown with
  | nil => rw [plantAll]; rfl
  | cons tree trees ih =>
    rw [plantAll, ih]
    by_cases hpart : tree.isPart = true
    · rw [if_pos hpart, List.filter_cons_of_pos hpart]
      rfl
    · rw [if_neg hpart, List.filter_cons_of_neg hpart]

theorem plantPending_eq (grown : Tree) (top : Pending) :
    source.plantPending grown top =
      (top.tree.parts.map (Pending.mk top.tree.kind grown.size)).foldl source.plantPending
        (grown.add top.parent
          (source.treeNode (top.tree.category (some top.above)) (some top.parent) top.tree)) := by
  obtain ⟨above, parent, ⟨head, children⟩⟩ := top
  rw [plantPending, plant, plantAll_eq_foldl]
  rfl

/-- The loop adds the pending parse trees one after the other, and every tree on the
way is one that steps give. -/
theorem growFrom_eq (source : Source) {pending : List Pending} {grown : Tree} (h : grown.Reachable)
    (hp : ∀ each ∈ pending, each.parent < grown.size) :
    source.growFrom pending grown = .ok (pending.foldl source.plantPending grown) ∧
      (pending.foldl source.plantPending grown).Reachable := by
  induction hn : (pending.flatMap fun each => each.tree.listing).length using Nat.strongRecOn
    generalizing pending grown with
  | ind n ih =>
    cases pending with
    | nil =>
      rw [growFrom]
      exact ⟨rfl, h⟩
    | cons top pending =>
      have hparent : top.parent < grown.size := hp top List.mem_cons_self
      let category := top.tree.category (some top.above)
      let node := source.treeNode category (some top.parent) top.tree
      have hpush : grown.push category top.parent =
          .ok (grown.add top.parent { category, parent := some top.parent }, grown.size) := by
        rw [Tree.push, if_pos hparent]
      have hattach : source.attach grown.size category top.tree
          (grown.add top.parent { category, parent := some top.parent }) =
            .ok (grown.add top.parent node) :=
        attach_put (fun node change => Tree.modify_add hparent node change) category _ top.tree
      have hreach : (grown.add top.parent node).Reachable :=
        reachable_attach (h.push hpush) hattach
      have hbelow : ∀ each ∈ top.tree.parts.map (Pending.mk top.tree.kind grown.size) ++ pending,
          each.parent < (grown.add top.parent node).size := by
        intro each heach
        rw [Tree.size_add]
        rcases List.mem_append.mp heach with hpart | hrest
        · obtain ⟨part, _, rfl⟩ := List.mem_map.mp hpart
          exact Nat.lt_succ_self _
        · exact Nat.lt_succ_of_lt (hp each (List.mem_cons_of_mem _ hrest))
      have hless := length_flatMap_parts top pending grown.size
      rw [hn] at hless
      obtain ⟨hgrow, hresult⟩ := ih _ hless hreach hbelow rfl
      rw [List.foldl_append, ← plantPending_eq] at hgrow hresult
      refine ⟨?_, hresult⟩
      rw [growFrom, hpush]
      refine Eq.trans ?_ hgrow
      change (source.attach grown.size category top.tree _ >>= _) = _
      rw [hattach]
      rfl

/-- **The loop grows the tree of the source**, by steps that are all accepted. -/
theorem grow_eq_project (source : Source) :
    source.grow = .ok source.project ∧ source.project.Reachable := by
  have hattach : source.attach Tree.root source.containerCategory source.container.2
      (Tree.singleton source.containerCategory) =
        .ok ⟨#[source.treeNode source.containerCategory none source.container.2]⟩ :=
    attach_put Tree.modify_root source.containerCategory none source.container.2
  have hreach := reachable_attach (Tree.Reachable.singleton _) hattach
  have hproject : source.project = (source.container.2.parts.map
      (Pending.mk source.container.2.kind Tree.root)).foldl source.plantPending
        ⟨#[source.treeNode source.containerCategory none source.container.2]⟩ :=
    plantAll_eq_foldl _ _ _ _
  have hbelow : ∀ each ∈ source.container.2.parts.map
      (Pending.mk source.container.2.kind Tree.root), each.parent < 1 := by
    intro each heach
    obtain ⟨part, _, rfl⟩ := List.mem_map.mp heach
    exact Nat.one_pos
  obtain ⟨hgrow, hresult⟩ := growFrom_eq source hreach hbelow
  rw [← hproject] at hgrow hresult
  refine ⟨?_, hresult⟩
  rw [grow, hattach]
  exact hgrow

/-! ## What the nodes tell -/

/-- `node` stores what the source has to tell of the parse tree node at the end of a
way.  The parent is the entry whose way stops one step before. -/
structure Stored (source : Source) (entries : List (List Nat × ParseTree)) (way : List Nat)
    (tree : ParseTree) (node : Tree.Node) : Prop where
  span_eq : node.span = some (source.span tree)
  fields_eq : node.fields = source.fields node.category tree
  keys_nodup : (node.fields.map Prod.fst).Nodup
  top : way = [] → node.parent = none ∧ node.category = source.containerCategory
  below : ∀ {up place}, way = up ++ [place] → ∃ parent above,
    entries[parent]? = some (up, above) ∧ node.parent = some parent ∧
      node.category = tree.category (some above.kind)

/-- The nodes of a tree store the entries of a list, under the same numbers. -/
structure Tells (source : Source) (entries : List (List Nat × ParseTree)) (grown : Tree) :
    Prop where
  size_eq : grown.size = entries.length
  get? : ∀ {id way tree}, entries[id]? = some (way, tree) →
    ∃ node, grown.get? id = some node ∧ source.Stored entries way tree node

variable {entries : List (List Nat × ParseTree)}

theorem getElem?_append_some {entry : List Nat × ParseTree} {id : Nat}
    (h : entries[id]? = some entry) (more : List (List Nat × ParseTree)) :
    (entries ++ more)[id]? = some entry := by
  rw [List.getElem?_append_left (List.getElem?_eq_some_iff.mp h).1, h]

/-- More entries and more children change nothing about what a node stores. -/
theorem Stored.append {way : List Nat} {tree : ParseTree} {node : Tree.Node}
    (h : source.Stored entries way tree node) (more : List (List Nat × ParseTree))
    (children : List Nat) : source.Stored (entries ++ more) way tree { node with children } where
  span_eq := h.span_eq
  fields_eq := h.fields_eq
  keys_nodup := h.keys_nodup
  top := h.top
  below := by
    intro up place hway
    obtain ⟨parent, above, hentry, hrest⟩ := h.below hway
    exact ⟨parent, above, getElem?_append_some hentry more, hrest⟩

theorem tells_container (source : Source) :
    source.Tells [([], source.container.2)]
      ⟨#[source.treeNode source.containerCategory none source.container.2]⟩ where
  size_eq := rfl
  get? := by
    intro id way tree hentry
    cases id with
    | succ id => cases hentry
    | zero =>
      obtain ⟨rfl, rfl⟩ := Prod.mk.inj (Option.some.inj hentry)
      refine ⟨_, rfl, rfl, rfl, source.fields_nodup _ _, fun _ => ⟨rfl, rfl⟩, ?_⟩
      intro up place hway
      simp at hway

/-- The step: one more entry below an entry of the list. -/
theorem Tells.add {grown : Tree} (h : source.Tells entries grown) {id : Nat} {up : List Nat}
    {above : ParseTree} (hid : entries[id]? = some (up, above)) (place : Nat) (tree : ParseTree) :
    source.Tells (entries ++ [(up ++ [place], tree)])
      (grown.add id (source.treeNode (tree.category (some above.kind)) (some id) tree)) := by
  have hp : id < grown.size := by
    rw [h.size_eq]
    exact (List.getElem?_eq_some_iff.mp hid).1
  refine ⟨by rw [Tree.size_add, h.size_eq, List.length_append, List.length_singleton], ?_⟩
  intro each way found hentry
  rw [Tree.get?_add hp, h.size_eq]
  by_cases heach : each = entries.length
  · -- the new entry
    rw [heach, List.getElem?_concat_length] at hentry
    obtain ⟨rfl, rfl⟩ := Prod.mk.inj (Option.some.inj hentry)
    rw [if_pos heach]
    refine ⟨_, rfl, rfl, rfl, source.fields_nodup _ _, ?_, ?_⟩
    · intro hnil
      simp at hnil
    · intro up' place' hway
      obtain ⟨rfl, _⟩ := List.append_inj' hway rfl
      exact ⟨id, above, getElem?_append_some hid _, rfl, rfl⟩
  · have hlt : each < entries.length := by
      have hle := (List.getElem?_eq_some_iff.mp hentry).1
      rw [List.length_append, List.length_singleton] at hle
      omega
    rw [List.getElem?_append_left hlt] at hentry
    obtain ⟨node, hnode, hstored⟩ := h.get? hentry
    rw [if_neg heach, hnode, Option.map_some]
    refine ⟨_, rfl, ?_⟩
    split
    · exact hstored.append _ _
    · exact hstored.append _ node.children

/-- An entry seen from further up. -/
def lower (up : List Nat) (entry : List Nat × ParseTree) : List Nat × ParseTree :=
  (up ++ entry.1, entry.2)

mutual

/-- The run: planting a parse tree adds the entries of its listing. -/
theorem Tells.plant {entries : List (List Nat × ParseTree)} {grown : Tree}
    (h : source.Tells entries grown) {id : Nat} {up : List Nat} {above : ParseTree}
    (hid : entries[id]? = some (up, above)) (place : Nat) :
    (tree : ParseTree) →
      source.Tells (entries ++ tree.listing.map (lower (up ++ [place])))
        (source.plant above.kind id grown tree)
  | .node head children => by
    have hadd := h.add hid place (.node head children)
    have hnew : (entries ++ [(up ++ [place], ParseTree.node head children)])[grown.size]? =
        some (up ++ [place], .node head children) := by
      rw [h.size_eq, List.getElem?_concat_length]
    have hall := hadd.plantAll hnew 0 children
    rw [Source.plant]
    rw [List.append_assoc] at hall
    rw [ParseTree.listing, List.map_cons, lower, List.append_nil]
    exact hall

theorem Tells.plantAll {entries : List (List Nat × ParseTree)} {grown : Tree}
    (h : source.Tells entries grown) {id : Nat} {up : List Nat} {above : ParseTree}
    (hid : entries[id]? = some (up, above)) (place : Nat) :
    (trees : List ParseTree) →
      source.Tells (entries ++ (ParseTree.listingAll place trees).map (lower up))
        (source.plantAll above.kind id grown trees)
  | [] => by
    rw [ParseTree.listingAll, Source.plantAll]
    simpa using h
  | tree :: trees => by
    rw [ParseTree.listingAll, Source.plantAll]
    split
    · have hmap : (tree.listing.map fun entry => (place :: entry.1, entry.2)).map (lower up) =
          tree.listing.map (lower (up ++ [place])) := by
        rw [List.map_map]
        refine List.map_congr_left fun entry _ => ?_
        simp [lower]
      rw [List.map_append, hmap, ← List.append_assoc]
      exact (h.plant hid place tree).plantAll (getElem?_append_some hid _) (place + 1) trees
    · rw [List.nil_append]
      exact h.plantAll hid (place + 1) trees

end

/-- The parts of the program below the container in document order, with the container
first. -/
def listing (source : Source) : List (List Nat × ParseTree) :=
  source.container.2.listing

theorem tells_project (source : Source) : source.Tells source.listing source.project := by
  have htop : [(([] : List Nat), source.container.2)][0]? = some ([], source.container.2) := rfl
  have hall := (tells_container source).plantAll htop 0 source.container.2.children
  have hlower : lower [] = id := by
    funext entry
    rfl
  rw [hlower, List.map_id] at hall
  rw [listing, ParseTree.listing_eq]
  exact hall

/-! ## The order of the numbers -/

theorem listing_pairwise (source : Source) :
    (source.listing.map Prod.fst).Pairwise (List.Lex (· < ·)) :=
  ParseTree.listing_pairwise source.container.2

/-- Entries are numbered in the order of their ways. -/
theorem lt_iff_lex {i j : Nat} {early late : List Nat} {tree other : ParseTree}
    (hi : source.listing[i]? = some (early, tree)) (hj : source.listing[j]? = some (late, other)) :
    i < j ↔ List.Lex (· < ·) early late := by
  have hway {k : Nat} {entry : List Nat × ParseTree} (hk : source.listing[k]? = some entry) :
      (source.listing.map Prod.fst)[k]? = some entry.1 := by
    rw [List.getElem?_map, hk]
    rfl
  obtain ⟨hi', hearly⟩ := List.getElem?_eq_some_iff.mp (hway hi)
  obtain ⟨hj', hlate⟩ := List.getElem?_eq_some_iff.mp (hway hj)
  have hincreasing := List.pairwise_iff_getElem.mp source.listing_pairwise
  constructor
  · intro hlt
    have hlex := hincreasing i j hi' hj' hlt
    rwa [hearly, hlate] at hlex
  · intro hlex
    rcases Nat.lt_trichotomy i j with hlt | rfl | hlt
    · exact hlt
    · rw [hearly] at hlate
      rw [show early = late from hlate] at hlex
      exact absurd hlex (List.lt_irrefl late)
    · have hback := hincreasing j i hj' hi' hlt
      rw [hearly, hlate] at hback
      exact absurd hlex (List.lt_asymm hback)

/-- The way of a parent stops one step before. -/
theorem Tells.way_isParent {grown : Tree} (h : source.Tells entries grown) {parent id : Nat}
    (hp : grown.IsParent parent id) {way : List Nat} {tree : ParseTree}
    (hid : entries[id]? = some (way, tree)) :
    ∃ up above place, entries[parent]? = some (up, above) ∧ way = up ++ [place] := by
  obtain ⟨node, hnode, hstored⟩ := h.get? hid
  have hparent : node.parent = some parent := (Tree.parent?_of_get? hnode).symm.trans hp
  rcases List.eq_nil_or_concat' way with rfl | ⟨up, place, rfl⟩
  · rw [(hstored.top rfl).1] at hparent
    cases hparent
  · obtain ⟨parent', above, hentry, hparent', _⟩ := hstored.below rfl
    rw [hparent] at hparent'
    obtain rfl := Option.some.inj hparent'
    exact ⟨up, above, place, hentry, rfl⟩

/-- A way leads on from those of the nodes above. -/
theorem Tells.way_atOrAbove {grown : Tree} (h : source.Tells entries grown) {above id : Nat}
    (habove : grown.AtOrAbove above id) {way : List Nat} {tree : ParseTree}
    (hid : entries[id]? = some (way, tree)) :
    ∃ up top rest, entries[above]? = some (up, top) ∧ way = up ++ rest := by
  induction habove generalizing way tree with
  | refl => exact ⟨way, tree, [], hid, (List.append_nil way).symm⟩
  | tail _ hp ih =>
    obtain ⟨up, top, place, hparent, rfl⟩ := h.way_isParent hp hid
    obtain ⟨up', top', rest, htop, rfl⟩ := ih hparent
    exact ⟨up', top', rest ++ [place], htop, List.append_assoc _ _ _⟩

/-- A sibling that comes later comes after all that is at or below the earlier one. -/
theorem Tells.lt_of_sibling {grown : Tree} (h : source.Tells source.listing grown)
    {parent c d x : Nat} (hc : grown.IsParent parent c) (hd : grown.IsParent parent d) (hlt : c < d)
    (hx : grown.AtOrAbove c x) : x < d := by
  have hentry {id : Nat} (hid : id < grown.size) :
      ∃ way tree, source.listing[id]? = some (way, tree) :=
    ⟨_, _, List.getElem?_eq_getElem (h.size_eq ▸ hid)⟩
  have hxsize : x < grown.size := by
    rcases Tree.atOrAbove_iff.mp hx with rfl | habove
    · exact Tree.lt_size_of_parent? hc
    · exact habove.lt_size
  obtain ⟨wayC, treeC, hwayC⟩ := hentry (Tree.lt_size_of_parent? hc)
  obtain ⟨wayD, treeD, hwayD⟩ := hentry (Tree.lt_size_of_parent? hd)
  obtain ⟨wayX, treeX, hwayX⟩ := hentry hxsize
  obtain ⟨up, above, early, hup, rfl⟩ := h.way_isParent hc hwayC
  obtain ⟨up', above', late, hup', rfl⟩ := h.way_isParent hd hwayD
  obtain ⟨wayC', treeC', rest, hwayC', rfl⟩ := h.way_atOrAbove hx hwayX
  rw [hup] at hup'
  obtain ⟨rfl, _⟩ := Prod.mk.inj (Option.some.inj hup')
  rw [hwayC] at hwayC'
  obtain ⟨rfl, _⟩ := Prod.mk.inj (Option.some.inj hwayC')
  -- the two ways part at the parent, where the earlier sibling has the smaller place
  have hplaces : early < late := by
    have hlex := (lt_iff_lex hwayC hwayD).mp hlt
    rcases Nat.lt_trichotomy early late with hlt' | rfl | hlt'
    · exact hlt'
    · exact absurd hlex (List.lt_irrefl _)
    · have hback : List.Lex (· < ·) (up ++ [late]) (up ++ [early]) :=
        List.append_left_lt (List.Lex.rel hlt')
      exact absurd hlex (List.lt_asymm hback)
  refine (lt_iff_lex hwayX hwayD).mpr ?_
  rw [List.append_assoc]
  exact List.append_left_lt (List.Lex.rel hplaces)

theorem preorder_project (source : Source) :
    source.project.preorder Tree.root = List.range source.project.size := by
  have hl := source.grow_eq_project.2.linked
  refine Tree.preorder_eq_range hl (Tree.preorder_pairwise_lt hl ?_ Tree.root)
  intro parent c d x hc hd hlt hx
  exact source.tells_project.lt_of_sibling hc hd hlt hx

/-- **The tree of a source is the document order of its parse tree.**  The listing of
the container tells exactly the parts that a way leads to, with increasing ways.
The tree has one node for each entry, under the same number, with the category,
the parent, the lines and the fields of the entry; and growing it step by step
gives the same tree, where no step is refused.  Hence a walk over the tree goes
through the numbers in order, and every forest of it draws in that order. -/
theorem project_in_document_order (source : Source) :
    (∀ way tree, (way, tree) ∈ source.listing ↔ source.container.2.LeadsTo way tree) ∧
    (source.listing.map Prod.fst).Pairwise (List.Lex (· < ·)) ∧
    source.grow = .ok source.project ∧
    source.Tells source.listing source.project ∧
    (source.project.walk Tree.root).map Prod.fst = List.range source.listing.length ∧
    ∀ sheet, ∃ forest, Forest.build sheet source.project = .ok forest ∧
      (forest.nodes.toList.map Forest.Node.source).Pairwise (· < ·) := by
  have hl := source.grow_eq_project.2.linked
  refine ⟨fun way tree => ParseTree.mem_listing_iff, source.listing_pairwise,
    source.grow_eq_project.1, source.tells_project, ?_, fun sheet => ?_⟩
  · rw [Tree.map_fst_walk_root hl, preorder_project, source.tells_project.size_eq]
  · refine ⟨_, Forest.build_eq_spliced hl sheet, ?_⟩
    change ((Forest.splice sheet _ _).nodes.toList.map Forest.Node.source).Pairwise (· < ·)
    rw [Forest.map_source_splice (Forest.topDown_preorder hl).lt_size, preorder_project]
    exact List.pairwise_lt_range.filter _

end Java.Source
end SyntaxForest
