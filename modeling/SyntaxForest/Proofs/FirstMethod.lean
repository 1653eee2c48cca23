import SyntaxForest.Proofs.Comments
import SyntaxForest.Proofs.Projection

/-! The account of the first method against the tree of a source.  The account looks
for a method by a search of its own, which goes into comments as well; the tree
numbers the parts of the program.  Where comments are leaves, the method that is
found is the node of a method with the smallest number, both tell the same of it,
and its statements are the children of the node of its body. -/

namespace SyntaxForest

/-- The node of a category that has the smallest number. -/
structure Tree.IsFirst (tree : Tree) (category : Category) (id : Nat) (node : Tree.Node) :
    Prop where
  get?_eq : tree.get? id = some node
  category_eq : node.category = category
  not_before : ∀ {early other}, early < id → tree.get? early = some other →
    other.category ≠ category

namespace Java

namespace ParseTree

/-! ## Methods by category -/

theorem kind_of_kindCategory {kind : String} (h : kindCategory kind = .methodDeclaration) :
    kind = "method_declaration" ∨ kind = "constructor_declaration" := by
  unfold kindCategory at h
  split at h <;> first | contradiction | simp

theorem methodReferenceCategory_ne (tree : ParseTree) :
    tree.methodReferenceCategory ≠ .methodDeclaration := by
  unfold methodReferenceCategory
  repeat' split
  all_goals decide

theorem updateCategory_ne (tree : ParseTree) : tree.updateCategory ≠ .methodDeclaration := by
  unfold updateCategory
  repeat' split
  all_goals decide

/-- Methods and constructors have a category to themselves, wherever they stand. -/
theorem category_eq_methodDeclaration_iff {tree : ParseTree} {parent : Option String} :
    tree.category parent = .methodDeclaration ↔ tree.isMethod = true := by
  rw [isMethod, Bool.or_eq_true, decide_eq_true_iff, decide_eq_true_iff]
  constructor
  · intro h
    unfold category at h
    split at h
    case h_9 => exact absurd h (methodReferenceCategory_ne tree)
    case h_13 => exact absurd h (updateCategory_ne tree)
    case h_15 => exact kind_of_kindCategory h
    all_goals split at h <;> contradiction
  · rintro (h | h) <;> rw [category, h] <;> rfl

/-! ## The search -/

/-- The parts of the program at or below the parts of a list. -/
def partsAll (trees : List ParseTree) : List ParseTree :=
  trees.flatMap fun tree => if tree.isPart then tree.listing.map Prod.snd else []

theorem map_snd_listingAll (place : Nat) (trees : List ParseTree) :
    (listingAll place trees).map Prod.snd = partsAll trees := by
  induction trees generalizing place with
  | nil =>
    rw [listingAll]
    rfl
  | cons tree trees ih =>
    rw [listingAll, List.map_append, ih, partsAll, partsAll, List.flatMap_cons]
    split
    · rw [List.map_map]
      rfl
    · rfl

theorem map_snd_listing (tree : ParseTree) :
    tree.listing.map Prod.snd = tree :: partsAll tree.children := by
  rw [listing_eq, List.map_cons, map_snd_listingAll]

/-- Only named trees are parts of the program. -/
theorem partsAll_namedChildren (tree : ParseTree) :
    partsAll tree.namedChildren = partsAll tree.children := by
  rw [namedChildren, partsAll, partsAll]
  induction tree.children with
  | nil => rfl
  | cons child children ih =>
    rw [List.filter_cons, List.flatMap_cons, ← ih]
    by_cases hnamed : child.isNamed = true
    · rw [if_pos hnamed, List.flatMap_cons]
    · have hpart : ¬ child.isPart = true := by simp [isPart, hnamed]
      rw [if_neg hnamed, if_neg hpart, List.nil_append]

theorem partsAll_append (front back : List ParseTree) :
    partsAll (front ++ back) = partsAll front ++ partsAll back :=
  List.flatMap_append

theorem partsAll_cons_of_isPart {tree : ParseTree} (h : tree.isPart = true)
    (trees : List ParseTree) :
    partsAll (tree :: trees) = tree :: partsAll (tree.namedChildren ++ trees) := by
  rw [partsAll_append, partsAll_namedChildren, partsAll.eq_def (tree :: trees), List.flatMap_cons,
    if_pos h, map_snd_listing, ← partsAll, List.cons_append]

theorem partsAll_cons_of_isComment {tree : ParseTree} (h : tree.isComment = true)
    (trees : List ParseTree) : partsAll (tree :: trees) = partsAll trees := by
  have hpart : ¬ tree.isPart = true := by simp [isPart, h]
  rw [partsAll, List.flatMap_cons, if_neg hpart, List.nil_append, ← partsAll]

/-- Trees that the search may have before it: all are named, and comments at or below
them have nothing inside. -/
structure Searchable (pending : List ParseTree) : Prop where
  named : ∀ tree ∈ pending, tree.isNamed = true
  leaf : ∀ node ∈ descendantsAll pending, node.isComment = true → node.children = []

namespace Searchable

variable {tree : ParseTree} {pending : List ParseTree}

theorem of_children
    (h : ∀ node ∈ tree.descendants, node.isComment = true → node.children = []) :
    Searchable tree.namedChildren where
  named _ hchild := (List.mem_filter.mp hchild).2
  leaf node hnode := by
    obtain ⟨child, hchild, hbelow⟩ := mem_descendantsAll_iff.mp hnode
    exact h node (mem_descendants_iff.mpr ⟨child, (List.mem_filter.mp hchild).1, hbelow⟩)

/-- One round of the search leaves trees that it may have before it. -/
theorem next (h : Searchable (tree :: pending)) :
    Searchable (tree.namedChildren ++ pending) := by
  have hchildren : Searchable tree.namedChildren := of_children fun node hnode =>
    h.leaf node (mem_descendantsAll_iff.mpr
      ⟨tree, List.mem_cons_self, List.mem_cons_of_mem _ hnode⟩)
  refine ⟨fun each heach => ?_, fun node hnode => ?_⟩
  · rcases List.mem_append.mp heach with hchild | hlater
    · exact hchildren.named each hchild
    · exact h.named each (List.mem_cons_of_mem _ hlater)
  · obtain ⟨each, heach, hbelow⟩ := mem_descendantsAll_iff.mp hnode
    rcases List.mem_append.mp heach with hchild | hlater
    · exact hchildren.leaf node (mem_descendantsAll_iff.mpr ⟨each, hchild, hbelow⟩)
    · exact h.leaf node (mem_descendantsAll_iff.mpr
        ⟨each, List.mem_cons_of_mem _ hlater, hbelow⟩)

/-- The search finds the first method of the parts at or below the pending trees, since
there is nothing to be found in a comment. -/
theorem firstMethodFrom?_eq_find? (h : Searchable pending) :
    firstMethodFrom? pending = (partsAll pending).find? isMethod := by
  induction pending using firstMethodFrom?.induct with
  | case1 =>
    rw [firstMethodFrom?]
    rfl
  | case2 tree pending hmethod =>
    have hcomment : tree.isComment = false := by
      by_contra hcomment
      rw [isMethod_eq_false_of_isComment (Bool.eq_true_of_not_eq_false hcomment)] at hmethod
      cases hmethod
    have hpart : tree.isPart = true := by
      simp [isPart, hcomment, h.named tree List.mem_cons_self]
    rw [firstMethodFrom?, if_pos hmethod, partsAll_cons_of_isPart hpart,
      List.find?_cons_of_pos hmethod]
  | case3 tree pending hmethod ih =>
    rw [firstMethodFrom?, if_neg hmethod, ih h.next]
    by_cases hcomment : tree.isComment = true
    · -- a comment is no part of the program, and has no children
      have hleaf := h.leaf tree (mem_descendantsAll_iff.mpr
        ⟨tree, List.mem_cons_self, List.mem_cons_self⟩) hcomment
      rw [partsAll_cons_of_isComment hcomment, namedChildren_eq_nil hleaf, List.nil_append]
    · have hpart : tree.isPart = true := by
        simp [isPart, hcomment, h.named tree List.mem_cons_self]
      rw [partsAll_cons_of_isPart hpart, List.find?_cons_of_neg hmethod]

end Searchable

/-- The first method is the first one of the listing. -/
theorem firstMethod?_eq_find? (tree : ParseTree)
    (h : ∀ node ∈ tree.descendants, node.isComment = true → node.children = []) :
    tree.firstMethod? = (tree.listing.map Prod.snd).find? isMethod := by
  rw [firstMethod?, firstMethodFrom?, map_snd_listing]
  by_cases hmethod : tree.isMethod = true
  · rw [if_pos hmethod, List.find?_cons_of_pos hmethod]
  · rw [if_neg hmethod, List.find?_cons_of_neg hmethod, List.append_nil,
      ← partsAll_namedChildren]
    exact (Searchable.of_children h).firstMethodFrom?_eq_find?

/-! ## The parts of a node in the listing -/

theorem LeadsTo.unique {top tree other : ParseTree} {way : List Nat} (h : top.LeadsTo way tree)
    (h' : top.LeadsTo way other) : tree = other := by
  induction h with
  | here => cases h'; rfl
  | down hchild _ _ ih =>
    cases h' with
    | down hchild' _ hrest' =>
      rw [hchild] at hchild'
      obtain rfl := Option.some.inj hchild'
      exact ih hrest'

/-- A way that is one step longer leads to a part of the node that it leads to
before. -/
theorem leadsTo_concat_iff {top child : ParseTree} {way : List Nat} {place : Nat} :
    top.LeadsTo (way ++ [place]) child ↔
      ∃ tree, top.LeadsTo way tree ∧ tree.children[place]? = some child ∧ child.isPart = true := by
  induction way generalizing top with
  | nil =>
    constructor
    · intro h
      cases h with
      | down hchild hpart hrest =>
        cases hrest
        exact ⟨top, .here top, hchild, hpart⟩
    · rintro ⟨tree, h, hchild, hpart⟩
      cases h
      exact .down hchild hpart (.here child)
  | cons first way ih =>
    constructor
    · intro h
      cases h with
      | down hchild hpart hrest =>
        obtain ⟨tree, htree, hrest⟩ := ih.mp hrest
        exact ⟨tree, .down hchild hpart htree, hrest⟩
    · rintro ⟨tree, h, hrest⟩
      cases h with
      | down hchild hpart htree => exact .down hchild hpart (ih.mpr ⟨tree, htree, hrest⟩)

/-- The parts of a node with the ways that lead to them from further up. -/
def placedParts (way : List Nat) (tree : ParseTree) : List (List Nat × ParseTree) :=
  (tree.children.zipIdx.filter fun child => child.1.isPart).map fun child =>
    (way ++ [child.2], child.1)

theorem mem_placedParts_iff {way way' : List Nat} {tree child : ParseTree} :
    (way', child) ∈ placedParts way tree ↔
      ∃ place, way' = way ++ [place] ∧ tree.children[place]? = some child ∧
        child.isPart = true := by
  simp only [placedParts, List.mem_map, List.mem_filter, Prod.exists, List.mem_zipIdx_iff_getElem?,
    Prod.mk.injEq]
  constructor
  · rintro ⟨found, place, ⟨hchild, hpart⟩, rfl, rfl⟩
    exact ⟨place, rfl, hchild, hpart⟩
  · rintro ⟨place, rfl, hchild, hpart⟩
    exact ⟨child, place, ⟨hchild, hpart⟩, rfl, rfl⟩

theorem map_snd_placedParts (way : List Nat) (tree : ParseTree) :
    (placedParts way tree).map Prod.snd = tree.parts := by
  have hfst : (tree.children.zipIdx.filter fun child => child.1.isPart).map Prod.fst =
      (tree.children.zipIdx.map Prod.fst).filter isPart := by
    rw [List.filter_map]
    rfl
  rw [placedParts, List.map_map, parts, ← List.zipIdx_map_fst 0 tree.children, ← hfst,
    List.zipIdx_map_fst]
  rfl

theorem placedParts_pairwise (way : List Nat) (tree : ParseTree) :
    (placedParts way tree).Pairwise fun early late => List.Lex (· < ·) early.1 late.1 := by
  have hplaces : (tree.children.zipIdx.map Prod.snd).Pairwise (· < ·) := by
    rw [List.zipIdx_map_snd]
    exact List.pairwise_lt_range'
  rw [List.pairwise_map] at hplaces
  rw [placedParts, List.pairwise_map]
  refine (hplaces.filter _).imp fun hlt => ?_
  exact List.append_left_lt (List.Lex.rel hlt)

end ParseTree

/-! ## The children of a node in the tree -/

namespace Source
open ParseTree
variable {source : Source}

/-- A way leads to one entry only. -/
theorem listing_index_unique {i j : Nat} {way : List Nat} {tree other : ParseTree}
    (hi : source.listing[i]? = some (way, tree)) (hj : source.listing[j]? = some (way, other)) :
    i = j := by
  rcases Nat.lt_trichotomy i j with hlt | heq | hlt
  · exact absurd ((lt_iff_lex hi hj).mp hlt) (List.lt_irrefl way)
  · exact heq
  · exact absurd ((lt_iff_lex hj hi).mp hlt) (List.lt_irrefl way)

theorem leadsTo_of_listing {id : Nat} {way : List Nat} {tree : ParseTree}
    (h : source.listing[id]? = some (way, tree)) : source.container.2.LeadsTo way tree :=
  mem_listing_iff.mp (List.mem_of_getElem? h)

/-- The children of a node are the entries of its parts. -/
theorem isParent_project_iff {id child : Nat} {way way' : List Nat} {tree part : ParseTree}
    (hid : source.listing[id]? = some (way, tree))
    (hchild : source.listing[child]? = some (way', part)) :
    source.project.IsParent id child ↔ (way', part) ∈ placedParts way tree := by
  rw [mem_placedParts_iff]
  constructor
  · intro hparent
    obtain ⟨up, above, place, hup, rfl⟩ := source.tells_project.way_isParent hparent hchild
    rw [hid] at hup
    obtain ⟨rfl, rfl⟩ := Prod.mk.inj (Option.some.inj hup)
    obtain ⟨found, hfound, hplace, hpart⟩ := leadsTo_concat_iff.mp (leadsTo_of_listing hchild)
    obtain rfl := hfound.unique (leadsTo_of_listing hid)
    exact ⟨place, rfl, hplace, hpart⟩
  · rintro ⟨place, rfl, -, -⟩
    obtain ⟨node, hnode, hstored⟩ := source.tells_project.get? hchild
    obtain ⟨parent, above, hentry, hparent, -⟩ := hstored.below rfl
    obtain rfl := listing_index_unique hid hentry
    exact (Tree.parent?_of_get? hnode).trans hparent

/-- The entries of the children of a node are its parts in order. -/
theorem filterMap_children_project {id : Nat} {way : List Nat} {tree : ParseTree}
    (hid : source.listing[id]? = some (way, tree)) :
    (source.project.children id).filterMap (source.listing[·]?) = placedParts way tree := by
  have hl := source.grow_eq_project.2.linked
  have hirrefl : Std.Irrefl fun early late : List Nat × ParseTree =>
      List.Lex (· < ·) early.1 late.1 :=
    ⟨fun entry => List.lt_irrefl entry.1⟩
  have hanti : Std.Antisymm fun early late : List Nat × ParseTree =>
      List.Lex (· < ·) early.1 late.1 :=
    ⟨fun early late h h' => absurd h' (List.lt_asymm h)⟩
  refine List.Pairwise.eq_of_mem_iff (r := fun early late => List.Lex (· < ·) early.1 late.1)
    ?_ (placedParts_pairwise way tree) ?_
  · rw [List.pairwise_filterMap]
    refine (Tree.children_pairwise hl id).imp fun {c d} hlt => ?_
    rintro ⟨early, part⟩ hearly ⟨late, part'⟩ hlate
    exact (lt_iff_lex hearly hlate).mp hlt
  · rintro ⟨way', part⟩
    rw [List.mem_filterMap]
    constructor
    · rintro ⟨child, hmem, hchild⟩
      exact (isParent_project_iff hid hchild).mp ((Tree.mem_children_iff hl).mp hmem)
    · intro hmem
      obtain ⟨place, rfl, hplace, hpart⟩ := mem_placedParts_iff.mp hmem
      have hleads : source.container.2.LeadsTo (way ++ [place]) part :=
        leadsTo_concat_iff.mpr ⟨tree, leadsTo_of_listing hid, hplace, hpart⟩
      obtain ⟨child, hchild⟩ := List.mem_iff_getElem?.mp (mem_listing_iff.mpr hleads)
      exact ⟨child, (Tree.mem_children_iff hl).mpr ((isParent_project_iff hid hchild).mpr hmem),
        hchild⟩

/-- The categories of the children of a node are those of its parts. -/
theorem map_category_children_project {id : Nat} {way : List Nat} {tree : ParseTree}
    (hid : source.listing[id]? = some (way, tree)) :
    ((source.project.children id).map fun child =>
        (source.project.get? child).map Tree.Node.category) =
      tree.parts.map fun part => some (part.category (some tree.kind)) := by
  have hl := source.grow_eq_project.2.linked
  rw [← map_snd_placedParts way tree, ← filterMap_children_project hid, List.map_map,
    List.map_filterMap, ← List.filterMap_eq_map]
  refine List.filterMap_congr fun child hmem => ?_
  have hparent := (Tree.mem_children_iff hl).mp hmem
  have hlt : child < source.listing.length := by
    rw [← source.tells_project.size_eq]
    exact Tree.lt_size_of_parent? hparent
  obtain ⟨⟨way', part⟩, hentry⟩ : ∃ entry, source.listing[child]? = some entry :=
    ⟨_, List.getElem?_eq_getElem hlt⟩
  obtain ⟨node, hnode, hstored⟩ := source.tells_project.get? hentry
  obtain ⟨place, rfl, -, -⟩ := mem_placedParts_iff.mp ((isParent_project_iff hid hentry).mp hparent)
  obtain ⟨parent, above, habove, -, hcategory⟩ := hstored.below rfl
  obtain rfl := (leadsTo_of_listing habove).unique (leadsTo_of_listing hid)
  rw [hentry, Function.comp_apply, hnode, Option.map_some, Option.map_some, hcategory]
  rfl

/-! ## The first method -/

theorem containerCategory_eq_methodDeclaration_iff :
    source.containerCategory = .methodDeclaration ↔ source.container.2.isMethod = true := by
  rw [containerCategory, ← category_eq_methodDeclaration_iff]
  split
  · rename_i hstatement
    rw [hstatement]
    decide
  · rfl

/-- A node has the category of methods exactly when it stands for a method. -/
theorem category_project_iff {id : Nat} {way : List Nat} {tree : ParseTree} {node : Tree.Node}
    (hentry : source.listing[id]? = some (way, tree)) (hnode : source.project.get? id = some node) :
    node.category = .methodDeclaration ↔ tree.isMethod = true := by
  obtain ⟨node', hnode', hstored⟩ := source.tells_project.get? hentry
  rw [hnode] at hnode'
  obtain rfl := Option.some.inj hnode'
  rcases List.eq_nil_or_concat' way with rfl | ⟨up, place, rfl⟩
  · obtain rfl := (leadsTo_of_listing hentry).unique (.here _)
    rw [(hstored.top rfl).2, containerCategory_eq_methodDeclaration_iff]
  · obtain ⟨-, above, -, -, hcategory⟩ := hstored.below rfl
    rw [hcategory, category_eq_methodDeclaration_iff]

theorem mem_descendants_of_container {node : ParseTree}
    (h : node ∈ source.container.2.descendants) : node ∈ source.tree.descendants := by
  rw [container] at h
  split at h
  · split at h
    · rename_i snippet hfound
      have hchild := (List.mem_filter.mp (List.mem_of_find?_eq_some hfound)).1
      exact mem_descendants_iff.mpr ⟨snippet, hchild, List.mem_cons_of_mem _ h⟩
    · exact h
  · exact h

section
variable (hleaves : ∀ node ∈ source.tree.descendants, node.isComment = true → node.children = [])
include hleaves

theorem firstMethod?_container :
    source.container.2.firstMethod? = (source.listing.map Prod.snd).find? isMethod :=
  firstMethod?_eq_find? source.container.2 fun node hnode =>
    hleaves node (mem_descendants_of_container hnode)

/-- There is a method to be found exactly when a node of the tree stands for one. -/
theorem isSome_firstMethod?_iff :
    source.container.2.firstMethod?.isSome = true ↔
      ∃ id node, source.project.get? id = some node ∧ node.category = .methodDeclaration := by
  rw [firstMethod?_container hleaves, List.find?_isSome]
  constructor
  · rintro ⟨method, hmem, hmethod⟩
    obtain ⟨⟨way, tree⟩, hentry, rfl⟩ := List.mem_map.mp hmem
    obtain ⟨id, hid⟩ := List.mem_iff_getElem?.mp hentry
    obtain ⟨node, hnode, -⟩ := source.tells_project.get? hid
    exact ⟨id, node, hnode, (category_project_iff hid hnode).mpr hmethod⟩
  · rintro ⟨id, node, hnode, hcategory⟩
    have hlt : id < source.listing.length := by
      rw [← source.tells_project.size_eq]
      exact Tree.lt_size_of_get? hnode
    have hid := List.getElem?_eq_getElem hlt
    exact ⟨source.listing[id].2, List.mem_map_of_mem (List.getElem_mem hlt),
      (category_project_iff hid hnode).mp hcategory⟩

/-- The method that is found is the one with the smallest number in the tree. -/
theorem firstMethod?_of_isFirst {id : Nat} {node : Tree.Node}
    (h : source.project.IsFirst .methodDeclaration id node) :
    ∃ way method, source.listing[id]? = some (way, method) ∧
      source.container.2.firstMethod? = some method := by
  have hlt : id < source.listing.length := by
    rw [← source.tells_project.size_eq]
    exact Tree.lt_size_of_get? h.get?_eq
  have hid := List.getElem?_eq_getElem hlt
  refine ⟨source.listing[id].1, source.listing[id].2, hid, ?_⟩
  rw [firstMethod?_container hleaves, List.find?_eq_some_iff_getElem]
  refine ⟨(category_project_iff hid h.get?_eq).mp h.category_eq, id,
    by rwa [List.length_map], List.getElem_map _, ?_⟩
  intro early hearly
  have hentry := List.getElem?_eq_getElem (Nat.lt_trans hearly hlt)
  obtain ⟨other, hother, -⟩ := source.tells_project.get? hentry
  have hnot : source.listing[early].2.isMethod = false :=
    Bool.of_not_eq_true (mt (category_project_iff hentry hother).mpr (h.not_before hearly hother))
  rw [List.getElem_map, hnot]
  rfl

end

end Source

/-! ## What is told of it -/

/-- What an account of a method and a node of the tree agree on: the name, which is
empty where the node has none, the type, the number of parameters, and the modifiers,
of which the account leaves out the annotations. -/
structure MethodDump.Agrees (source : Source) (method : ParseTree) (node : Tree.Node)
    (dump : MethodDump) : Prop where
  name : node.field? .name = none ∧ dump.name = "" ∨ node.field? .name = some (.text dump.name)
  returnType : node.field? .returnType = dump.returnType.map .text
  parameters : ∃ items, node.field? .parameters = some (.list items) ∧
    dump.parameters.length = items.length
  modifiers : node.field? .modifiers =
    some (.list ((Source.modifierNodes method).map source.lineOf))
  keywords : dump.modifiers =
    ((Source.modifierNodes method).filter fun modifier =>
      !Source.isAnnotated modifier).map source.lineOf

namespace MethodDump
open ParseTree
variable {source : Source}

/-- The fields of a method, each by its name. -/
theorem lookup_fields (source : Source) (method : ParseTree) :
    (source.fields .methodDeclaration method).lookup .name =
      (source.fieldLine? method "name").map .text ∧
    (source.fields .methodDeclaration method).lookup .returnType =
      (source.fieldLine? method "type").map .text ∧
    (source.fields .methodDeclaration method).lookup .parameters =
      some (.list ((Source.parameterNodes method).map source.lineOf)) ∧
    (source.fields .methodDeclaration method).lookup .modifiers =
      some (.list (source.modifiers method)) := by
  simp only [Source.fields, Source.textField]
  cases source.fieldLine? method "name" <;> cases source.fieldLine? method "type" <;>
    exact ⟨rfl, rfl, rfl, rfl⟩

theorem agrees_ofMethod {method : ParseTree} {node : Tree.Node}
    (hfields : node.fields = source.fields .methodDeclaration method) :
    Agrees source method node (ofMethod source method) := by
  obtain ⟨hname, htype, hparameters, hmodifiers⟩ := lookup_fields source method
  rw [← hfields] at hname htype hparameters hmodifiers
  refine ⟨?_, htype, ⟨_, hparameters, ?_⟩, hmodifiers, rfl⟩
  · cases hline : source.fieldLine? method "name" with
    | none =>
      rw [hline] at hname
      exact .inl ⟨hname, by rw [ofMethod, hline]; rfl⟩
    | some name =>
      rw [hline] at hname
      exact .inr (hname.trans (by rw [ofMethod, hline]; rfl))
  · rw [ofMethod, List.length_map, List.length_map]

theorem ofSource_eq_ok_iff {dump : MethodDump} :
    ofSource source = .ok dump ↔
      ∃ method, source.container.2.firstMethod? = some method ∧ dump = ofMethod source method := by
  rw [ofSource]
  cases source.container.2.firstMethod? with
  | none => simp
  | some method => simp [eq_comm]

/-- The statements of a method are the children of the node that stands for its body,
where that is a part of the program. -/
theorem statements_ofMethod {id place : Nat} {way : List Nat} {method body : ParseTree}
    (hentry : source.listing[id]? = some (way, method))
    (hplace : method.children.findIdx? (fun child => child.head.field = some "body") = some place)
    (hbody : method.children[place]? = some body) (hpart : body.isPart = true) :
    ∃ statements bodyId bodyNode, (ofMethod source method).statements = some statements ∧
      source.listing[bodyId]? = some (way ++ [place], body) ∧
      source.project.get? bodyId = some bodyNode ∧ bodyNode.parent = some id ∧
      (bodyNode.children.map fun child => (source.project.get? child).map Tree.Node.category) =
        statements.map fun statement => some statement.1 := by
  have hfound : method.fieldChild? "body" = some body := by
    rw [fieldChild?, List.find?_eq_bind_findIdx?_getElem?, hplace, Option.bind_some, hbody]
  have hleads : source.container.2.LeadsTo (way ++ [place]) body :=
    leadsTo_concat_iff.mpr ⟨method, Source.leadsTo_of_listing hentry, hbody, hpart⟩
  obtain ⟨bodyId, hbodyId⟩ := List.mem_iff_getElem?.mp (mem_listing_iff.mpr hleads)
  obtain ⟨bodyNode, hbodyNode, -⟩ := source.tells_project.get? hbodyId
  have hparent : source.project.IsParent id bodyId :=
    (Source.isParent_project_iff hentry hbodyId).mpr
      (mem_placedParts_iff.mpr ⟨place, rfl, hbody, hpart⟩)
  refine ⟨_, bodyId, bodyNode, by rw [ofMethod, hfound, Option.map_some], hbodyId, hbodyNode,
    (Tree.parent?_of_get? hbodyNode).symm.trans hparent, ?_⟩
  rw [← Tree.children_of_get? hbodyNode, Source.map_category_children_project hbodyId,
    List.map_map]
  rfl

/-- **The account of the first method agrees with the tree.**  Where comments are
leaves, there is an account exactly when a node of the tree is a method, and
otherwise parsing has failed.  The account is that of the method with the smallest
number; it agrees with the node, and the categories of its statements are those of
the children of the node that stands for the body. -/
theorem ofSource_agrees_with_project
    (hleaves : ∀ node ∈ source.tree.descendants, node.isComment = true → node.children = []) :
    ((∃ dump, ofSource source = .ok dump) ↔
      ∃ id node, source.project.get? id = some node ∧ node.category = .methodDeclaration) ∧
    (∀ failure, ofSource source = .error failure → failure.kind = .parseFailed) ∧
    ∀ dump id node, ofSource source = .ok dump →
      source.project.IsFirst .methodDeclaration id node →
      ∃ way method, source.listing[id]? = some (way, method) ∧ Agrees source method node dump ∧
        ∀ place body, method.children.findIdx? (fun child => child.head.field = some "body") =
            some place →
          method.children[place]? = some body → body.isPart = true →
          ∃ statements bodyId bodyNode, dump.statements = some statements ∧
            source.listing[bodyId]? = some (way ++ [place], body) ∧
            source.project.get? bodyId = some bodyNode ∧ bodyNode.parent = some id ∧
            (bodyNode.children.map fun child =>
                (source.project.get? child).map Tree.Node.category) =
              statements.map fun statement => some statement.1 := by
  refine ⟨?_, ?_, ?_⟩
  · rw [← Source.isSome_firstMethod?_iff hleaves, Option.isSome_iff_exists]
    constructor
    · rintro ⟨dump, hdump⟩
      obtain ⟨method, hmethod, -⟩ := ofSource_eq_ok_iff.mp hdump
      exact ⟨method, hmethod⟩
    · rintro ⟨method, hmethod⟩
      exact ⟨ofMethod source method, ofSource_eq_ok_iff.mpr ⟨method, hmethod, rfl⟩⟩
  · intro failure hfailure
    rw [ofSource] at hfailure
    split at hfailure
    · cases hfailure
    · rw [← Except.error.inj hfailure]
      rfl
  · intro dump id node hdump hfirst
    obtain ⟨way, method, hentry, hmethod⟩ := Source.firstMethod?_of_isFirst hleaves hfirst
    obtain ⟨method', hmethod', rfl⟩ := ofSource_eq_ok_iff.mp hdump
    obtain rfl := Option.some.inj (hmethod.symm.trans hmethod')
    obtain ⟨node', hnode', hstored⟩ := source.tells_project.get? hentry
    obtain rfl := Option.some.inj (hfirst.get?_eq.symm.trans hnode')
    have hfields := hstored.fields_eq
    rw [hfirst.category_eq] at hfields
    exact ⟨way, method, hentry, agrees_ofMethod hfields, fun place body hplace hbody hpart =>
      statements_ofMethod hentry hplace hbody hpart⟩

/-- A class with a method that has an annotation, a keyword, a statement and a comment. -/
def annotatedText : String :=
  "class A \x7b @B final void f() \x7b return; /* c */ \x7d \x7d"

/-- The method of `annotatedText`. -/
def annotatedMethod : ParseTree :=
  Source.cleanNode "method_declaration" none 10 47 0
    [Source.cleanNode "modifiers" none 10 18 0
      [Source.cleanNode "marker_annotation" none 10 12 0
        [Source.token "@" 10 0, Source.cleanNode "identifier" (some "name") 11 12 0 []],
       Source.token "final" 13 0],
     Source.cleanNode "void_type" (some "type") 19 23 0 [],
     Source.cleanNode "identifier" (some "name") 24 25 0 [],
     Source.cleanNode "formal_parameters" (some "parameters") 25 27 0
      [Source.token "(" 25 0, Source.token ")" 26 0],
     Source.cleanNode "block" (some "body") 28 47 0
      [Source.token "\x7b" 28 0,
       Source.cleanNode "return_statement" none 30 37 0
        [Source.token "return" 30 0, Source.token ";" 36 0],
       Source.cleanNode "block_comment" none 38 45 0 [],
       Source.token "\x7d" 46 0]]

/-- The source of `annotatedText`. -/
def annotatedSource : Source where
  text := annotatedText
  tree :=
    Source.cleanNode "program" none 0 49 0
      [Source.cleanNode "class_declaration" none 0 49 0
        [Source.token "class" 0 0,
         Source.cleanNode "identifier" (some "name") 6 7 0 [],
         Source.cleanNode "class_body" (some "body") 8 49 0
          [Source.token "\x7b" 8 0, annotatedMethod, Source.token "\x7d" 48 0]]]
  isWrapped := false

theorem ofSource_agrees_with_project_annotated :
    (∀ node ∈ annotatedSource.tree.descendants, node.isComment = true → node.children = []) ∧
    annotatedSource.tree.descendants.any isComment = true ∧
    ∃ dump node, ofSource annotatedSource = .ok dump ∧
      annotatedSource.project.IsFirst .methodDeclaration 4 node ∧
      dump.name = "f" ∧ dump.returnType = some "void" ∧ dump.modifiers = ["final"] ∧
      dump.statements = some [(.returnStatement, "return;")] ∧
      node.field? .name = some (.text "f") ∧ node.field? .returnType = some (.text "void") ∧
      node.field? .modifiers = some (.list ["@B", "final"]) ∧
      ∃ way method, annotatedSource.listing[4]? = some (way, method) ∧
        Agrees annotatedSource method node dump := by
  have hleaves : ∀ node ∈ annotatedSource.tree.descendants,
      node.isComment = true → node.children = [] := by
    decide +kernel
  have htree : (annotatedSource.project.get? 4).map (fun node => (node.category,
      node.field? .name, node.field? .returnType, node.field? .modifiers)) =
        some (.methodDeclaration, some (.text "f"), some (.text "void"),
          some (.list ["@B", "final"])) := by
    decide +kernel
  have hbefore : ∀ early < 4,
      (annotatedSource.project.get? early).map Tree.Node.category ≠ some .methodDeclaration := by
    decide +kernel
  have hfacts : (ofSource annotatedSource).toOption =
      some { name := "f", returnType := some "void", isConstructor := false, hasVarargs := false
             modifiers := ["final"], parameters := []
             statements := some [(.returnStatement, "return;")] } := by
    decide +kernel
  obtain ⟨node, hnode, hnodeFacts⟩ := Option.map_eq_some_iff.mp htree
  obtain ⟨hcategory, hname, htype, hmodifiers⟩ :
      node.category = .methodDeclaration ∧ node.field? .name = some (.text "f") ∧
        node.field? .returnType = some (.text "void") ∧
        node.field? .modifiers = some (.list ["@B", "final"]) := by
    simpa using hnodeFacts
  have hfirst : annotatedSource.project.IsFirst .methodDeclaration 4 node :=
    ⟨hnode, hcategory, fun {early other} hlt hother heq =>
      hbefore early hlt (by rw [hother, Option.map_some, heq])⟩
  obtain ⟨hexists, -, hagrees⟩ := ofSource_agrees_with_project hleaves
  obtain ⟨dump, hdump⟩ := hexists.mpr ⟨4, node, hnode, hcategory⟩
  obtain ⟨way, method, hentry, hmethod, -⟩ := hagrees dump 4 node hdump hfirst
  rw [hdump] at hfacts
  obtain rfl := Option.some.inj hfacts
  exact ⟨hleaves, by decide +kernel, _, node, hdump, hfirst, rfl, rfl, rfl, rfl, hname, htype,
    hmodifiers, way, method, hentry, hmethod⟩

end MethodDump

end Java

end SyntaxForest
