import SyntaxForest.Java.MethodDump

/-! Parse trees without their comments.  A parser hangs comments into a parse tree
wherever they stand in the text: as leaves that fill no field, behind the first
child of the node they come to stand in.  So what is read off a parse tree, its
parts and fields, its category, its errors and its first method, is the same when
the comments are taken out of it. -/

namespace SyntaxForest.Java

namespace ParseTree

mutual

/-- The nodes below a node, in document order. -/
def descendants : ParseTree → List ParseTree
  | .node _ children => descendantsAll children

/-- The nodes of a list of trees, in document order. -/
def descendantsAll : List ParseTree → List ParseTree
  | [] => []
  | tree :: trees => tree :: (tree.descendants ++ descendantsAll trees)

end

mutual

/-- The tree without the comments below its root. -/
def uncommented : ParseTree → ParseTree
  | .node head children => .node head (uncommentedAll children)

/-- The trees that are no comments, each without its comments. -/
def uncommentedAll : List ParseTree → List ParseTree
  | [] => []
  | tree :: trees =>
    if tree.isComment then uncommentedAll trees else tree.uncommented :: uncommentedAll trees

end

/-- Below a list of trees stand the trees themselves and what is below them. -/
theorem mem_descendantsAll_iff {trees : List ParseTree} {node : ParseTree} :
    node ∈ descendantsAll trees ↔ ∃ tree ∈ trees, node ∈ tree :: tree.descendants := by
  induction trees with
  | nil => simp [descendantsAll]
  | cons tree trees ih =>
    rw [descendantsAll, ← List.cons_append, List.mem_append, ih]
    simp

/-- The descendants of a node are its children and their descendants. -/
theorem mem_descendants_iff {tree node : ParseTree} :
    node ∈ tree.descendants ↔ ∃ child ∈ tree.children, node ∈ child :: child.descendants := by
  cases tree
  rw [descendants, mem_descendantsAll_iff]
  rfl

/-- Comments are passed over, and all other trees stay in their order. -/
theorem uncommentedAll_eq (trees : List ParseTree) :
    uncommentedAll trees = (trees.filter fun tree => !tree.isComment).map uncommented := by
  induction trees with
  | nil => rfl
  | cons tree trees ih =>
    rw [uncommentedAll, ih]
    by_cases hcomment : tree.isComment = true <;> simp [hcomment]

@[simp] theorem head_uncommented (tree : ParseTree) : tree.uncommented.head = tree.head := by
  cases tree
  rfl

@[simp] theorem kind_uncommented (tree : ParseTree) : tree.uncommented.kind = tree.kind := by
  rw [kind, head_uncommented, kind]

@[simp] theorem isNamed_uncommented (tree : ParseTree) :
    tree.uncommented.isNamed = tree.isNamed := by
  rw [isNamed, head_uncommented, isNamed]

@[simp] theorem isComment_uncommented (tree : ParseTree) :
    tree.uncommented.isComment = tree.isComment := by
  rw [isComment, kind_uncommented, isComment]

@[simp] theorem isPart_uncommented (tree : ParseTree) : tree.uncommented.isPart = tree.isPart := by
  simp [isPart]

/-- The children that stay are those that are no comments. -/
theorem children_uncommented (tree : ParseTree) :
    tree.uncommented.children =
      (tree.children.filter fun child => !child.isComment).map uncommented := by
  cases tree
  exact uncommentedAll_eq _

/-- A leaf that fills no field and stands for no error. -/
structure IsBare (tree : ParseTree) : Prop where
  children_eq : tree.children = []
  field_eq : tree.head.field = none
  not_error : tree.head.isError = false
  not_missing : tree.head.isMissing = false

instance (tree : ParseTree) : Decidable tree.IsBare :=
  decidable_of_iff
    (tree.children = [] ∧ tree.head.field = none ∧ tree.head.isError = false ∧
      tree.head.isMissing = false)
    ⟨fun ⟨hchildren, hfield, herror, hmissing⟩ => ⟨hchildren, hfield, herror, hmissing⟩,
      fun h => ⟨h.children_eq, h.field_eq, h.not_error, h.not_missing⟩⟩

/-- A bare node has nothing below it. -/
theorem IsBare.descendants_eq_nil {tree : ParseTree} (h : tree.IsBare) :
    tree.descendants = [] := by
  obtain ⟨head, children⟩ := tree
  obtain rfl : children = [] := h.children_eq
  rfl

/-- A bare node has no error at or below it. -/
theorem IsBare.isFlawed_eq_false {tree : ParseTree} (h : tree.IsBare) :
    tree.isFlawed = false := by
  rw [isFlawed, h.not_error, h.not_missing]
  rfl

theorem IsBare.suspects_eq_nil {tree : ParseTree} (h : tree.IsBare) : tree.suspects = [] := by
  obtain ⟨head, children⟩ := tree
  obtain rfl : children = [] := h.children_eq
  rw [suspects, ite_self]

/-- The comments of a parse tree stand where a parser puts what may stand anywhere:
they are bare, and none comes first in a node below the root.  The root is a whole
text, so it is no update. -/
structure CommentsAreExtras (tree : ParseTree) : Prop where
  bare : ∀ node ∈ tree.descendants, node.isComment = true → node.IsBare
  not_first : ∀ node ∈ tree.descendants, ∀ first ∈ node.children.head?, first.isComment = false
  root_not_update : tree.kind ≠ "update_expression"

/-- What is needed of the comments at or below a node: they are bare, and none comes
first in an update. -/
structure Settled (tree : ParseTree) : Prop where
  bare : ∀ node ∈ tree.descendants, node.isComment = true → node.IsBare
  not_first : ∀ node ∈ tree :: tree.descendants, node.kind = "update_expression" →
    ∀ first ∈ node.children.head?, first.isComment = false

/-- Comments that are extras are settled: no update opens with one, the root not being one. -/
theorem CommentsAreExtras.settled {tree : ParseTree} (h : tree.CommentsAreExtras) :
    tree.Settled where
  bare := h.bare
  not_first := by
    intro node hnode hupdate
    rcases List.mem_cons.mp hnode with rfl | hbelow
    · exact absurd hupdate h.root_not_update
    · exact h.not_first node hbelow

variable {tree : ParseTree}

/-- What is needed of the comments holds below every child too. -/
theorem Settled.child (h : tree.Settled) {child : ParseTree} (hchild : child ∈ tree.children) :
    child.Settled := by
  have hbelow : ∀ node ∈ child :: child.descendants, node ∈ tree.descendants := fun node hnode =>
    mem_descendants_iff.mpr ⟨child, hchild, hnode⟩
  constructor
  · intro node hnode
    exact h.bare node (hbelow node (List.mem_cons_of_mem _ hnode))
  · intro node hnode
    exact h.not_first node (List.mem_cons_of_mem _ (hbelow node hnode))

theorem Settled.bare_child (h : tree.Settled) {child : ParseTree} (hchild : child ∈ tree.children)
    (hcomment : child.isComment = true) : child.IsBare :=
  h.bare child (mem_descendants_iff.mpr ⟨child, hchild, List.mem_cons_self⟩) hcomment

/-- Trees that are settled, with those that are comments bare, as the children of a
settled node are. -/
def AllSettled (trees : List ParseTree) : Prop :=
  ∀ tree ∈ trees, tree.Settled ∧ (tree.isComment = true → tree.IsBare)

theorem Settled.allSettled (h : tree.Settled) {trees : List ParseTree}
    (htrees : trees ⊆ tree.children) : AllSettled trees :=
  fun _ hchild => ⟨h.child (htrees hchild), h.bare_child (htrees hchild)⟩

theorem AllSettled.tail {trees : List ParseTree} (h : AllSettled (tree :: trees)) :
    AllSettled trees :=
  fun other hother => h other (List.mem_cons_of_mem _ hother)

/-- Some of the children of the first tree may take its place. -/
theorem AllSettled.append {trees pending : List ParseTree} (h : AllSettled (tree :: pending))
    (htrees : trees ⊆ tree.children) : AllSettled (trees ++ pending) := by
  intro each heach
  rcases List.mem_append.mp heach with hchild | hlater
  · exact (h tree List.mem_cons_self).1.allSettled htrees each hchild
  · exact h.tail each hlater

mutual

/-- The comments are taken out, and all other nodes stay as they are and where they
are. -/
theorem map_head_descendants_uncommented :
    (tree : ParseTree) → tree.Settled →
      tree.uncommented.descendants.map head =
        (tree.descendants.filter fun node => !node.isComment).map head
  | .node head children, h => by
    rw [uncommented, descendants, descendants]
    exact map_head_descendantsAll_uncommented children (h.allSettled (List.Subset.refl _))

/-- Without comments, the descendants in order are those that are no comments. -/
theorem map_head_descendantsAll_uncommented :
    (trees : List ParseTree) → AllSettled trees →
      (descendantsAll (uncommentedAll trees)).map head =
        ((descendantsAll trees).filter fun node => !node.isComment).map head
  | [], _ => rfl
  | tree :: trees, h => by
    have hrest := map_head_descendantsAll_uncommented trees h.tail
    obtain ⟨hsettled, hbare⟩ := h tree List.mem_cons_self
    rw [uncommentedAll, descendantsAll]
    by_cases hcomment : tree.isComment = true
    · rw [if_pos hcomment, hrest, (hbare hcomment).descendants_eq_nil]
      simp [hcomment]
    · have htree := map_head_descendants_uncommented tree hsettled
      rw [if_neg hcomment, descendantsAll, List.map_cons, List.map_append, hrest, htree]
      simp [hcomment]

end

/-! ## Children -/

section
variable {p : ParseTree → Bool} (hp : ∀ each, p each.uncommented = p each)
  (hcomment : ∀ child ∈ tree.children, child.isComment = true → p child = false)
include hp hcomment

/-- Children that are picked by what they are, comments not among them, are the same. -/
theorem filter_children_uncommented :
    tree.uncommented.children.filter p = (tree.children.filter p).map uncommented := by
  rw [children_uncommented, List.filter_map, List.filter_filter]
  refine congrArg (List.map uncommented) (List.filter_congr fun child hchild => ?_)
  rw [Function.comp_apply, hp]
  cases hc : child.isComment with
  | false => simp
  | true => simp [hcomment child hchild hc]

/-- The first child that is picked so is the same. -/
theorem find?_children_uncommented :
    tree.uncommented.children.find? p = (tree.children.find? p).map uncommented := by
  rw [← List.head?_filter, filter_children_uncommented hp hcomment, List.head?_map,
    List.head?_filter]

theorem any_children_uncommented :
    tree.uncommented.children.any p = tree.children.any p := by
  have hsome (trees : List ParseTree) : trees.any p = (trees.find? p).isSome := by
    rw [Bool.eq_iff_iff, List.find?_isSome, List.any_eq_true]
  rw [hsome, hsome, find?_children_uncommented hp hcomment, Option.isSome_map]

end

/-- No comment is of the kind of a token or of another node. -/
theorem kind_ne_of_isComment {tree : ParseTree} (h : tree.isComment = true) {kind : String}
    (hline : kind ≠ "line_comment") (hblock : kind ≠ "block_comment") : tree.kind ≠ kind := by
  rw [isComment, Bool.or_eq_true, decide_eq_true_iff, decide_eq_true_iff] at h
  rintro rfl
  exact h.elim hline hblock

/-- Comments are no parts of the program. -/
theorem parts_uncommented (tree : ParseTree) :
    tree.uncommented.parts = tree.parts.map uncommented := by
  refine filter_children_uncommented isPart_uncommented fun child _ hcomment => ?_
  simp [isPart, hcomment]

/-- Looking for a part finds the same one with and without comments: a comment is no part. -/
theorem find?_parts_uncommented {p : ParseTree → Bool} (hp : ∀ each, p each.uncommented = p each)
    (tree : ParseTree) : tree.uncommented.parts.find? p = (tree.parts.find? p).map uncommented := by
  rw [parts_uncommented, List.find?_map, show p ∘ uncommented = p from funext hp]

/-- The named children of a kind. -/
theorem find?_namedChildren_uncommented (tree : ParseTree) {kind : String}
    (hline : kind ≠ "line_comment") (hblock : kind ≠ "block_comment") :
    (tree.uncommented.namedChildren.find? fun child => child.kind = kind) =
      (tree.namedChildren.find? fun child => child.kind = kind).map uncommented := by
  rw [namedChildren, namedChildren, List.find?_filter, List.find?_filter]
  refine find?_children_uncommented (by simp) fun child _ hcomment => ?_
  simp [kind_ne_of_isComment hcomment hline hblock]

/-- Whether a named child of given kinds exists does not depend on comments. -/
theorem any_namedChildren_uncommented (tree : ParseTree) {kinds : List String}
    (hline : "line_comment" ∉ kinds) (hblock : "block_comment" ∉ kinds) :
    (tree.uncommented.namedChildren.any fun child => kinds.contains child.kind) =
      tree.namedChildren.any fun child => kinds.contains child.kind := by
  rw [namedChildren, namedChildren, List.any_filter, List.any_filter]
  refine any_children_uncommented (by simp) fun child _ hcomment => ?_
  have hkind : child.kind ∉ kinds := fun hmem =>
    kind_ne_of_isComment hcomment (fun heq => hline (heq ▸ hmem))
      (fun heq => hblock (heq ▸ hmem)) rfl
  simp [hkind]

/-- Comments are no tokens. -/
theorem hasToken_uncommented (tree : ParseTree) {token : String}
    (hline : token ≠ "line_comment") (hblock : token ≠ "block_comment") :
    tree.uncommented.hasToken token = tree.hasToken token := by
  refine any_children_uncommented (by simp) fun child _ hcomment => ?_
  simp [kind_ne_of_isComment hcomment hline hblock]

namespace Settled
variable (h : tree.Settled)
include h

/-- Comments fill no field. -/
theorem fieldChildren_uncommented (field : String) :
    tree.uncommented.fieldChildren field = (tree.fieldChildren field).map uncommented := by
  refine filter_children_uncommented (by simp) fun child hchild hcomment => ?_
  simp [(h.bare_child hchild hcomment).field_eq]

/-- A child in a field is found with and without comments: a comment fills no field. -/
theorem fieldChild?_uncommented (field : String) :
    tree.uncommented.fieldChild? field = (tree.fieldChild? field).map uncommented := by
  refine find?_children_uncommented (by simp) fun child hchild hcomment => ?_
  simp [(h.bare_child hchild hcomment).field_eq]

/-- An update begins with the same child. -/
theorem head?_children_uncommented (hupdate : tree.kind = "update_expression") :
    tree.uncommented.children.head? = tree.children.head?.map uncommented := by
  have hfirst := h.not_first tree List.mem_cons_self hupdate
  rw [children_uncommented]
  cases hchildren : tree.children with
  | nil => rfl
  | cons first rest =>
    rw [hchildren] at hfirst
    simp [hfirst first rfl]

/-! ## Categories -/

theorem fieldIs_uncommented (field kind : String) :
    tree.uncommented.fieldIs field kind = tree.fieldIs field kind := by
  rw [fieldIs, h.fieldChild?_uncommented, fieldIs, Option.any_map]
  simp

omit h in
/-- The category of a method reference does not depend on comments. -/
theorem methodReferenceCategory_uncommented (tree : ParseTree) :
    tree.uncommented.methodReferenceCategory = tree.methodReferenceCategory := by
  rw [methodReferenceCategory, hasToken_uncommented tree (by decide) (by decide), parts_uncommented,
    List.head?_map, methodReferenceCategory]
  cases tree.parts.head? with
  | none => rfl
  | some first => simp

/-- The category of an update does not depend on comments: none comes first in it. -/
theorem updateCategory_uncommented (hupdate : tree.kind = "update_expression") :
    tree.uncommented.updateCategory = tree.updateCategory := by
  rw [updateCategory, h.head?_children_uncommented hupdate, updateCategory]
  cases tree.children.head? with
  | none => rfl
  | some first => simp

/-- A node has the category that it has without its comments. -/
theorem category_uncommented (parent : Option String) :
    tree.uncommented.category parent = tree.category parent := by
  simp only [category, kind_uncommented, h.fieldIs_uncommented, h.fieldChild?_uncommented,
    Option.isSome_map, methodReferenceCategory_uncommented]
  -- only an update looks at the first of all children
  by_cases hupdate : tree.kind = "update_expression"
  · rw [h.updateCategory_uncommented hupdate]
  · split <;> trivial

end Settled

/-! ## Errors and methods -/

theorem uncommentedAll_append (trees more : List ParseTree) :
    uncommentedAll (trees ++ more) = uncommentedAll trees ++ uncommentedAll more := by
  simp only [uncommentedAll_eq, List.filter_append, List.map_append]

/-- The nodes searched for an error are the same without comments, in the same order. -/
theorem suspects_uncommented (tree : ParseTree) :
    tree.uncommented.suspects = uncommentedAll tree.suspects := by
  obtain ⟨head, children⟩ := tree
  rw [uncommented, suspects, suspects]
  split <;> rfl

/-- Whether a tree has an error does not depend on comments. -/
theorem isFlawed_uncommented (tree : ParseTree) : tree.uncommented.isFlawed = tree.isFlawed := by
  rw [isFlawed, head_uncommented, isFlawed]

/-- Without the comments among the pending trees the loop meets the same errors. -/
theorem errorCountFrom_uncommentedAll (count : Nat) (pending : List ParseTree)
    (h : AllSettled pending) :
    errorCountFrom count (uncommentedAll pending) = errorCountFrom count pending := by
  induction count, pending using errorCountFrom.induct with
  | case1 count => rfl
  | case2 count tree pending ih =>
    have hrest := ih (h.append tree.suspects_sublist.subset)
    rw [uncommentedAll, errorCountFrom]
    by_cases hcomment : tree.isComment = true
    · have hbare := (h tree List.mem_cons_self).2 hcomment
      rw [hbare.isFlawed_eq_false, hbare.suspects_eq_nil] at hrest ⊢
      rw [if_pos hcomment]
      exact hrest
    · rw [if_neg hcomment, errorCountFrom, isFlawed_uncommented, suspects_uncommented,
        ← uncommentedAll_append, hrest]

/-- No error is told by a comment, so as many are counted without them. -/
theorem errorCount_uncommented (tree : ParseTree) (h : tree.Settled) :
    tree.uncommented.errorCount = tree.errorCount := by
  have hall := errorCountFrom_uncommentedAll (0 + tree.isFlawed.toNat) tree.suspects
    (h.allSettled tree.suspects_sublist.subset)
  rw [errorCount, errorCount, errorCountFrom, errorCountFrom, isFlawed_uncommented,
    suspects_uncommented, List.append_nil, List.append_nil, hall]

theorem isMethod_eq_false_of_isComment {tree : ParseTree} (h : tree.isComment = true) :
    tree.isMethod = false := by
  simp [isMethod, kind_ne_of_isComment h]

/-- Whether a node declares a method does not depend on comments. -/
theorem isMethod_uncommented (tree : ParseTree) : tree.uncommented.isMethod = tree.isMethod := by
  rw [isMethod, kind_uncommented, isMethod]

/-- The named children without comments are the named children, each without comments. -/
theorem namedChildren_uncommented (tree : ParseTree) :
    tree.uncommented.namedChildren = uncommentedAll tree.namedChildren := by
  rw [namedChildren, children_uncommented, uncommentedAll_eq, namedChildren, List.filter_map,
    List.filter_filter, List.filter_filter]
  refine congrArg (List.map uncommented) (List.filter_congr fun child _ => ?_)
  rw [Function.comp_apply, isNamed_uncommented, Bool.and_comm]

theorem namedChildren_eq_nil {tree : ParseTree} (h : tree.children = []) :
    tree.namedChildren = [] := by
  rw [namedChildren, h, List.filter_nil]

/-- Without the comments among the pending trees the loop comes upon the same method,
which is settled as the trees are. -/
theorem firstMethodFrom?_uncommentedAll (pending : List ParseTree) (h : AllSettled pending) :
    firstMethodFrom? (uncommentedAll pending) = (firstMethodFrom? pending).map uncommented ∧
      ∀ method ∈ firstMethodFrom? pending, method.Settled := by
  induction pending using firstMethodFrom?.induct with
  | case1 =>
    rw [uncommentedAll, firstMethodFrom?]
    exact ⟨rfl, fun method hmethod => by cases hmethod⟩
  | case2 tree pending hmethod =>
    have hcomment : ¬ tree.isComment = true := by
      intro hcomment
      rw [isMethod_eq_false_of_isComment hcomment] at hmethod
      cases hmethod
    rw [uncommentedAll, if_neg hcomment, firstMethodFrom?, isMethod_uncommented, if_pos hmethod,
      firstMethodFrom?, if_pos hmethod]
    exact ⟨rfl, fun method heq => Option.some.inj heq ▸ (h tree List.mem_cons_self).1⟩
  | case3 tree pending hmethod ih =>
    have hrest := ih (h.append List.filter_sublist.subset)
    rw [uncommentedAll, firstMethodFrom?.eq_2 tree pending, if_neg hmethod]
    by_cases hcomment : tree.isComment = true
    · have hbare := (h tree List.mem_cons_self).2 hcomment
      rw [namedChildren_eq_nil hbare.children_eq] at hrest ⊢
      rw [if_pos hcomment]
      exact hrest
    · rw [if_neg hcomment, firstMethodFrom?, isMethod_uncommented, if_neg hmethod,
        namedChildren_uncommented, ← uncommentedAll_append]
      exact hrest

/-- The first method is the same without comments, and so are its comments. -/
theorem firstMethod?_uncommented (tree : ParseTree) (h : tree.Settled) :
    tree.uncommented.firstMethod? = tree.firstMethod?.map uncommented ∧
      ∀ method ∈ tree.firstMethod?, method.Settled := by
  rw [firstMethod?, firstMethodFrom?, firstMethod?, firstMethodFrom?, isMethod_uncommented]
  by_cases hmethod : tree.isMethod = true
  · rw [if_pos hmethod, if_pos hmethod]
    exact ⟨rfl, fun method heq => Option.some.inj heq ▸ h⟩
  · rw [if_neg hmethod, if_neg hmethod, List.append_nil, List.append_nil,
      namedChildren_uncommented]
    exact firstMethodFrom?_uncommentedAll _ (h.allSettled List.filter_sublist.subset)

end ParseTree

end SyntaxForest.Java
