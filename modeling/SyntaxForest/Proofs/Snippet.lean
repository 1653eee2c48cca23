import SyntaxForest.Java.Projection
import SyntaxForest.Proofs.ParseErrors
import SyntaxForest.Proofs.TreeCopies

/-! Snippets and units.  A snippet is drawn below the class that was put around it;
the same text taken as a unit is drawn below the unit and that class.  The two
containers are left out for different reasons, and what is drawn is the same. -/

namespace SyntaxForest

namespace Tree

/-- `outer` is `inner`, whose root is a type, below the root of a unit. -/
structure Raised (inner outer : Tree) : Prop where
  inner_linked : inner.Linked
  outer_linked : outer.Linked
  size_eq : outer.size = inner.size + 1
  copy : inner.Copy outer (· + 1)
  children_root : outer.children root = [root + 1]
  inner_category : (inner.get? root).map Node.category = some .typeDeclaration
  outer_category : (outer.get? root).map Node.category = some .compilationUnit

theorem map_category_add {tree : Tree} {parent : Nat} (hp : parent < tree.size) (node : Node)
    {id : Nat} (hid : id ≠ tree.size) :
    ((tree.add parent node).get? id).map Node.category = (tree.get? id).map Node.category := by
  rw [get?_add hp, if_neg hid, Option.map_map]
  refine Option.map_congr fun each _ => ?_
  rw [Function.comp_apply]
  split <;> rfl

/-- The root is never included. -/
theorem includes_root {tree : Tree} (h : tree.Linked) (sheet : StyleSheet) :
    sheet.includes tree root = false := by
  obtain ⟨node, hnode⟩ := exists_get? h.root_lt_size
  have hroot : node.isRoot = true := by
    rw [Node.isRoot, ← parent?_of_get? hnode, h.parent?_root]
    rfl
  simp [StyleSheet.includes, StyleSheet.decisionAt, hnode, hroot]

namespace Raised
variable {inner outer : Tree}

/-- A type alone, and below a unit. -/
theorem of_nodes {unit type type' : Node} (hunit : unit.category = .compilationUnit)
    (hunit' : unit.parent = none) (hbelow : unit.children = [])
    (htype : type.category = .typeDeclaration) (hroot : type.parent = none)
    (hparent : type'.parent = some root) (hcategory : type'.category = type.category)
    (hfields : type'.fields = type.fields) (hchildren : type.children = [])
    (hchildren' : type'.children = []) :
    Raised ⟨#[type]⟩ (add ⟨#[unit]⟩ root type') := by
  have hlinked : Linked ⟨#[unit]⟩ := linked_root hunit' hbelow
  have hp : root < size ⟨#[unit]⟩ := hlinked.root_lt_size
  refine
    { inner_linked := linked_root hroot hchildren
      outer_linked := hlinked.add hp hparent hchildren'
      size_eq := size_add root type'
      copy := ⟨?_⟩
      children_root := ?_
      inner_category := congrArg some htype
      outer_category := ?_ }
  · intro id node hnode
    obtain rfl : id = root := Nat.lt_one_iff.mp (lt_size_of_get? hnode)
    have hsame : get? ⟨#[type]⟩ root = some type := rfl
    obtain rfl : type = node := Option.some.inj (hsame.symm.trans hnode)
    refine ⟨type', ?_, hcategory, hfields, ?_⟩
    · rw [get?_add hp]
      exact if_pos rfl
    · rw [hchildren, hchildren', List.map_nil]
  · have hnone : children ⟨#[unit]⟩ root = [] := hbelow
    rw [children_add hp, if_neg (Nat.ne_of_lt hp), if_pos rfl, hnone]
    rfl
  · rw [map_category_add hp type' (Nat.ne_of_lt hp)]
    exact congrArg some hunit

/-- Adding the same node on both sides keeps the trees one above the other. -/
theorem add (h : Raised inner outer) {parent : Nat} (hp : parent < inner.size)
    {node raised : Node} (hcategory : raised.category = node.category)
    (hfields : raised.fields = node.fields) (hparent : node.parent = some parent)
    (hparent' : raised.parent = some (parent + 1)) (hchildren : node.children = [])
    (hchildren' : raised.children = []) :
    Raised (inner.add parent node) (outer.add (parent + 1) raised) := by
  have hp' : parent + 1 < outer.size := by
    rw [h.size_eq]
    omega
  have hroot : root ≠ inner.size := Nat.ne_of_lt h.inner_linked.root_lt_size
  have hroot' : root ≠ outer.size := Nat.ne_of_lt h.outer_linked.root_lt_size
  refine
    { inner_linked := h.inner_linked.add hp hparent hchildren
      outer_linked := h.outer_linked.add hp' hparent' hchildren'
      size_eq := by rw [size_add, size_add, h.size_eq]
      copy := ⟨?_⟩
      children_root := ?_
      inner_category := by rw [map_category_add hp node hroot, h.inner_category]
      outer_category := by rw [map_category_add hp' raised hroot', h.outer_category] }
  · intro id each heach
    rw [get?_add hp] at heach
    rw [get?_add hp', h.size_eq]
    by_cases hid : id = inner.size
    · rw [if_pos hid] at heach
      obtain rfl := Option.some.inj heach
      refine ⟨raised, if_pos (congrArg (· + 1) hid), hcategory, hfields, ?_⟩
      rw [hchildren, hchildren', List.map_nil]
    · rw [if_neg hid] at heach
      obtain ⟨old, hold, rfl⟩ := Option.map_eq_some_iff.mp heach
      obtain ⟨copy, hcopy, hsame, hsame', hbelow⟩ := h.copy.get? hold
      rw [if_neg (fun he => hid (Nat.succ.inj he)), hcopy, Option.map_some]
      refine ⟨_, rfl, ?_⟩
      by_cases hpid : id = parent <;> simp [hpid, hsame, hsame', hbelow]
  · have hne : root ≠ parent + 1 := (Nat.succ_ne_zero parent).symm
    rw [children_add hp', if_neg hroot', if_neg hne, h.children_root]

/-! ## What is included -/

theorem isParent_root (h : Raised inner outer) : outer.IsParent root (root + 1) := by
  rw [← mem_children_iff h.outer_linked, h.children_root]
  exact List.mem_singleton_self _

/-- The class under the unit is left out, as the class at the root is. -/
theorem includes_top (h : Raised inner outer) (sheet : StyleSheet) :
    sheet.includes outer (root + 1) = false := by
  obtain ⟨top, htop, hunit⟩ := Option.map_eq_some_iff.mp h.outer_category
  obtain ⟨node, hnode, hcategory⟩ := Option.map_eq_some_iff.mp h.inner_category
  obtain ⟨copy, hcopy, hsame, _⟩ := h.copy.get? hnode
  have hparent : copy.parent = some root := by
    rw [← parent?_of_get? hcopy]
    exact h.isParent_root
  simp [StyleSheet.includes, StyleSheet.decisionAt, StyleSheet.isOutermostType, hcopy, hsame,
    hcategory, hparent, htop, hunit]

/-- The same nodes are included on both sides. -/
theorem includes_eq (h : Raised inner outer) (sheet : StyleSheet) {id : Nat}
    (hid : id < inner.size) : sheet.includes outer (id + 1) = sheet.includes inner id := by
  by_cases hroot : id = root
  · rw [hroot, h.includes_top, includes_root h.inner_linked]
  · obtain ⟨parent, hp⟩ := h.inner_linked.exists_parent hid hroot
    have hp' := h.copy.isParent h.inner_linked h.outer_linked hp
    obtain ⟨node, hnode⟩ := exists_get? hid
    obtain ⟨copy, hcopy, hsame, _⟩ := h.copy.get? hnode
    obtain ⟨top, htop, htype⟩ := Option.map_eq_some_iff.mp h.inner_category
    have hparent : node.parent = some parent := (parent?_of_get? hnode).symm.trans hp
    have hparent' : copy.parent = some (parent + 1) := (parent?_of_get? hcopy).symm.trans hp'
    -- below the class neither rule applies: the root is no unit, or is not the parent
    have hunder : StyleSheet.isOutermostType inner node = false := by
      simp [StyleSheet.isOutermostType, htop, htype]
    have hunder' : StyleSheet.isOutermostType outer copy = false := by
      simp [StyleSheet.isOutermostType, hparent', root]
    simp [StyleSheet.includes, StyleSheet.decisionAt, Node.isRoot, hnode, hcopy, hsame, hparent,
      hparent', hunder, hunder']

theorem preorder_eq (h : Raised inner outer) :
    outer.preorder root = root :: (inner.preorder root).map (· + 1) := by
  rw [Tree.preorder_eq h.outer_linked, h.children_root,
    ← h.copy.preorder_eq h.inner_linked h.outer_linked h.inner_linked.root_lt_size]
  simp

/-- The splices are the same, with the sources one further. -/
theorem splice_eq (h : Raised inner outer) (sheet : StyleSheet) :
    Forest.splice sheet outer (outer.preorder root) =
      (Forest.splice sheet inner (inner.preorder root)).relabel (· + 1) := by
  have hroot := includes_root h.outer_linked sheet
  have habove : outer.ancestors (root + 1) = [root] := by
    rw [ancestors_of_isParent h.outer_linked h.isParent_root,
      ancestors_of_parent?_eq_none h.outer_linked.parent?_root]
  have hsources : Forest.sources sheet outer (outer.preorder root) =
      Forest.sources sheet outer ((inner.preorder root).map (· + 1)) := by
    rw [h.preorder_eq, Forest.sources, List.filter_cons, if_neg (by simp [hroot]), Forest.sources]
  have hsplice : Forest.splice sheet outer (outer.preorder root) =
      Forest.splice sheet outer ((inner.preorder root).map (· + 1)) := by
    rw [Forest.splice, hsources, Forest.splice]
  rw [hsplice]
  refine Forest.splice_map_place h.copy h.inner_linked h.outer_linked
    (fun id => h.includes_eq sheet) ?_ fun id => (mem_preorder_root_iff h.inner_linked).mp
  intro above hmem
  rw [habove, List.mem_singleton] at hmem
  rw [hmem, hroot]

end Raised

end Tree

namespace Java

/-! ## Both sides grow alike -/

namespace Source

/-- Fields are read from the text alone. -/
theorem fields_congr {source other : Source} (htext : other.text = source.text)
    (category : Category) (tree : ParseTree) :
    other.fields category tree = source.fields category tree := by
  obtain ⟨text, _, _⟩ := source
  obtain ⟨_, _, _⟩ := other
  obtain rfl := htext
  rfl

mutual

theorem size_le_plant (source : Source) (above : String) (parent : Nat) (grown : Tree) :
    (tree : ParseTree) → grown.size ≤ (source.plant above parent grown tree).size
  | .node head children => by
    rw [plant]
    have hall := size_le_plantAll source head.kind grown.size
      (grown.add parent (source.treeNode ((ParseTree.node head children).category (some above))
        (some parent) (.node head children))) children
    rw [Tree.size_add] at hall
    omega

theorem size_le_plantAll (source : Source) (above : String) (parent : Nat) (grown : Tree) :
    (trees : List ParseTree) → grown.size ≤ (source.plantAll above parent grown trees).size
  | [] => Nat.le_of_eq (by rw [plantAll])
  | tree :: trees => by
    rw [plantAll]
    refine Nat.le_trans ?_ (size_le_plantAll source above parent _ trees)
    split
    · exact size_le_plant source above parent grown tree
    · exact Nat.le_refl _

end

variable {source other : Source}

mutual

/-- A parse tree planted on both sides keeps the trees one above the other. -/
theorem raised_plant (htext : other.text = source.text) {inner outer : Tree}
    (h : inner.Raised outer) {parent : Nat} (hp : parent < inner.size) (above : String) :
    (tree : ParseTree) →
      (source.plant above parent inner tree).Raised (other.plant above (parent + 1) outer tree)
  | .node head children => by
    rw [plant, plant, h.size_eq]
    refine raised_plantAll htext ?_ (by rw [Tree.size_add]; omega) head.kind children
    exact h.add hp rfl (fields_congr htext _ _) rfl rfl rfl rfl

theorem raised_plantAll (htext : other.text = source.text) {inner outer : Tree}
    (h : inner.Raised outer) {parent : Nat} (hp : parent < inner.size) (above : String) :
    (trees : List ParseTree) →
      (source.plantAll above parent inner trees).Raised
        (other.plantAll above (parent + 1) outer trees)
  | [] => by
    rw [plantAll, plantAll]
    exact h
  | tree :: trees => by
    rw [plantAll, plantAll]
    split
    · have hgrown := size_le_plant source above parent inner tree
      exact raised_plantAll htext (raised_plant htext h hp above tree)
        (Nat.lt_of_lt_of_le hp hgrown) above trees
    · exact raised_plantAll htext h hp above trees

end

/-- Only the parts of a list are planted. -/
theorem plantAll_filter_isPart (above : String) (parent : Nat) (grown : Tree)
    (trees : List ParseTree) :
    source.plantAll above parent grown (trees.filter ParseTree.isPart) =
      source.plantAll above parent grown trees := by
  induction trees generalizing grown with
  | nil => rfl
  | cons tree trees ih =>
    by_cases hpart : tree.isPart = true
    · rw [List.filter_cons, if_pos hpart, plantAll, plantAll, if_pos hpart, ih]
    · rw [List.filter_cons, if_neg hpart, plantAll, if_neg hpart, ih]

/-! ## The two readings of a text -/

theorem ofText_of_isWrapped {parse : Parser} {text : String}
    (h : (ofText parse text).isWrapped = true) :
    ofText parse text = ⟨wrap text, parse (wrap text), true⟩ := by
  rw [ofText_eq, if_pos h]

theorem ofText_of_looksLikeUnit {parse : Parser} {text : String}
    (h : looksLikeUnit (parse text) = true) : ofText parse text = ⟨text, parse text, false⟩ := by
  simp [ofText, h]

section
variable {tree snippet : ParseTree}

/-- The one part of a parse tree is among its named children. -/
theorem mem_namedChildren (hparts : tree.parts = [snippet]) : snippet ∈ tree.namedChildren := by
  have hmem : snippet ∈ tree.parts := hparts ▸ List.mem_singleton_self snippet
  obtain ⟨hchild, hpart⟩ := List.mem_filter.mp hmem
  exact List.mem_filter.mpr ⟨hchild, (Bool.and_eq_true_iff.mp hpart).1⟩

theorem looksLikeUnit_of_parts (hparts : tree.parts = [snippet])
    (hclass : snippet.kind = "class_declaration") : looksLikeUnit tree = true := by
  refine List.any_eq_true.mpr ⟨snippet, mem_namedChildren hparts, ?_⟩
  rw [hclass]
  rfl

/-- Comments are passed over in looking for the class. -/
theorem find?_class (hparts : tree.parts = [snippet])
    (hclass : snippet.kind = "class_declaration") :
    (tree.namedChildren.find? fun child => child.kind = "class_declaration") = some snippet := by
  have hfound : (tree.namedChildren.find? fun child =>
      child.kind = "class_declaration").isSome = true :=
    List.find?_isSome.mpr ⟨snippet, mem_namedChildren hparts, by simp [hclass]⟩
  obtain ⟨child, hchild⟩ := Option.isSome_iff_exists.mp hfound
  have hkind : child.kind = "class_declaration" := by simpa using List.find?_some hchild
  obtain ⟨hmem, hnamed⟩ := List.mem_filter.mp (List.mem_of_find?_eq_some hchild)
  have hpart : child ∈ tree.parts := by
    refine List.mem_filter.mpr ⟨hmem, ?_⟩
    simp [ParseTree.isPart, ParseTree.isComment, hnamed, hkind]
  rw [hparts, List.mem_singleton] at hpart
  rw [hchild, hpart]

theorem category_class (hclass : snippet.kind = "class_declaration") :
    snippet.category (some "program") = .typeDeclaration := by
  rw [ParseTree.category, hclass]
  rfl

/-- The class is planted right below the unit. -/
theorem project_unit {text : String} (hunit : tree.kind = "program")
    (hparts : tree.parts = [snippet]) (hclass : snippet.kind = "class_declaration") :
    project ⟨text, tree, false⟩ =
      plantAll ⟨text, tree, false⟩ snippet.kind (Tree.root + 1)
        (Tree.add ⟨#[treeNode ⟨text, tree, false⟩ .compilationUnit none tree]⟩ Tree.root
          (treeNode ⟨text, tree, false⟩ .typeDeclaration (some Tree.root) snippet))
        snippet.children := by
  have hcategory : containerCategory ⟨text, tree, false⟩ = .compilationUnit := by
    have hkind : tree.category none = .compilationUnit := by
      rw [ParseTree.category, hunit]
      rfl
    simp [containerCategory, container, hkind]
  have hpart : snippet.isPart = true := by
    have hmem : snippet ∈ tree.parts := hparts ▸ List.mem_singleton_self snippet
    exact (List.mem_filter.mp hmem).2
  obtain ⟨head, children⟩ := snippet
  have hcontainer : container ⟨text, tree, false⟩ = (none, tree) := rfl
  rw [project, hcategory, hcontainer, ← plantAll_filter_isPart, ← ParseTree.parts, hparts, plantAll,
    plantAll, if_pos hpart, plant, hunit, category_class hclass]
  rfl

/-- A snippet is planted below its class. -/
theorem project_snippet {text : String} (hunit : tree.kind = "program")
    (hparts : tree.parts = [snippet]) (hclass : snippet.kind = "class_declaration") :
    project ⟨text, tree, true⟩ =
      plantAll ⟨text, tree, true⟩ snippet.kind Tree.root
        ⟨#[treeNode ⟨text, tree, true⟩ .typeDeclaration none snippet]⟩ snippet.children := by
  have hcontainer : container ⟨text, tree, true⟩ = (some "program", snippet) := by
    simp [container, find?_class hparts hclass, hunit]
  have hcategory : containerCategory ⟨text, tree, true⟩ = .typeDeclaration := by
    simp [containerCategory, hcontainer, category_class hclass]
  rw [project, hcategory, hcontainer]

/-- The tree of the unit is the tree of the snippet, one further down. -/
theorem raised_project {text : String} (hunit : tree.kind = "program")
    (hparts : tree.parts = [snippet]) (hclass : snippet.kind = "class_declaration") :
    (project ⟨text, tree, true⟩).Raised (project ⟨text, tree, false⟩) := by
  rw [project_snippet hunit hparts hclass, project_unit hunit hparts hclass]
  have htext : (Source.mk text tree false).text = (Source.mk text tree true).text := rfl
  have hbase : Tree.Raised ⟨#[treeNode ⟨text, tree, true⟩ .typeDeclaration none snippet]⟩
      (Tree.add ⟨#[treeNode ⟨text, tree, false⟩ .compilationUnit none tree]⟩ Tree.root
        (treeNode ⟨text, tree, false⟩ .typeDeclaration (some Tree.root) snippet)) :=
    Tree.Raised.of_nodes rfl rfl rfl rfl rfl rfl rfl
      (fields_congr htext .typeDeclaration snippet) rfl rfl
  exact raised_plantAll htext hbase hbase.inner_linked.root_lt_size snippet.kind snippet.children

end

/-- **Snippets are drawn as units.**  A snippet whose class is all there is in the
parse of the wrapped text gives the drawing of the wrapped text itself, with the
sources one further, whatever the settings. -/
theorem snippet_drawn_as_unit {parse : Parser} {text : String} {snippet : ParseTree}
    (hwrapped : (ofText parse text).isWrapped = true)
    (hunit : (parse (wrap text)).kind = "program")
    (hparts : (parse (wrap text)).parts = [snippet])
    (hclass : snippet.kind = "class_declaration") (sheet : StyleSheet) :
    ∃ inner outer, Forest.build sheet (ofText parse text).project = .ok inner ∧
      Forest.build sheet (ofText parse (wrap text)).project = .ok outer ∧
      outer.nodes = inner.nodes.map (fun node => { node with source := node.source + 1 }) ∧
      outer.edges = inner.edges ∧
      (∀ canvas, outer.dot canvas = inner.dot canvas) ∧
      outer.json.pretty = inner.json.pretty := by
  have hraised : (project ⟨wrap text, parse (wrap text), true⟩).Raised
      (project ⟨wrap text, parse (wrap text), false⟩) :=
    raised_project hunit hparts hclass
  rw [ofText_of_isWrapped hwrapped,
    ofText_of_looksLikeUnit (looksLikeUnit_of_parts hparts hclass)]
  refine ⟨_, _, Forest.build_eq_spliced hraised.inner_linked sheet,
    Forest.build_eq_spliced hraised.outer_linked sheet, ?_⟩
  rw [Forest.spliced, hraised.splice_eq sheet, Forest.json_relabel]
  exact ⟨rfl, rfl, fun canvas => Forest.dot_relabel _ _ canvas, rfl⟩

/-- A method without a class, as a text. -/
def methodText : String := "void f() \x7b return; \x7d"

/-- A parse tree without errors, on one row, between two bytes of the text. -/
def cleanNode (kind : String) (field : Option String) (start stop row : Nat)
    (children : List ParseTree) : ParseTree :=
  .node
    { kind, isNamed := true, isError := false, isMissing := false, hasError := false, field
      startByte := start, stopByte := stop, startRow := row, stopRow := row }
    children

/-- A token on one row. -/
def token (kind : String) (start row : Nat) : ParseTree :=
  .node
    { kind, isNamed := false, isError := false, isMissing := false, hasError := false
      field := none, startByte := start, stopByte := start + kind.length, startRow := row
      stopRow := row }
    []

/-- A parse tree that ends on a later row. -/
def endingOn (row : Nat) : ParseTree → ParseTree
  | .node head children => .node { head with stopRow := row } children

/-- The parse tree of `methodText` behind so many bytes and rows. -/
def methodTree (bytes row : Nat) : ParseTree :=
  cleanNode "method_declaration" none bytes (bytes + 20) row
    [cleanNode "void_type" (some "type") bytes (bytes + 4) row [],
     cleanNode "identifier" (some "name") (bytes + 5) (bytes + 6) row [],
     cleanNode "formal_parameters" (some "parameters") (bytes + 6) (bytes + 8) row
      [token "(" (bytes + 6) row, token ")" (bytes + 7) row],
     cleanNode "block" (some "body") (bytes + 9) (bytes + 20) row
      [token "\x7b" (bytes + 9) row,
       cleanNode "return_statement" none (bytes + 11) (bytes + 18) row
        [token "return" (bytes + 11) row, token ";" (bytes + 17) row],
       token "\x7d" (bytes + 19) row]]

/-- The parse tree of the class around `methodText`. -/
def methodClass : ParseTree :=
  endingOn 2 <| cleanNode "class_declaration" none 0 48 0
    [token "class" 0 0,
     cleanNode "identifier" (some "name") 6 23 0 [],
     endingOn 2 <| cleanNode "class_body" (some "body") 24 48 0
      [token "\x7b" 24 0, methodTree 26 1, token "\x7d" 47 2]]

/-- A parser that knows `methodText`, wrapped and not. -/
def methodParser : Parser := fun text =>
  if text = wrap methodText then endingOn 3 (cleanNode "program" none 0 49 0 [methodClass])
  else cleanNode "program" none 0 20 0 [methodTree 0 0]

theorem snippet_drawn_as_unit_method :
    (ofText methodParser methodText).isWrapped = true ∧
    (methodParser (wrap methodText)).kind = "program" ∧
    (methodParser (wrap methodText)).parts = [methodClass] ∧
    methodClass.kind = "class_declaration" ∧
    ∃ inner outer,
      Forest.build Forest.methodsAndReturns (ofText methodParser methodText).project = .ok inner ∧
      Forest.build Forest.methodsAndReturns (ofText methodParser (wrap methodText)).project =
        .ok outer ∧
      inner.nodes.toList.map Forest.Node.source = [3, 8] ∧
      outer.nodes.toList.map Forest.Node.source = [4, 9] ∧
      inner.edges = #[⟨0, 1⟩] ∧ outer.edges = inner.edges ∧
      (∀ canvas, outer.dot canvas = inner.dot canvas) ∧
      outer.json.pretty = inner.json.pretty := by
  have hwrapped : (ofText methodParser methodText).isWrapped = true := by decide +kernel
  have hparse : methodParser (wrap methodText) =
      endingOn 3 (cleanNode "program" none 0 49 0 [methodClass]) :=
    if_pos rfl
  have hunit : (methodParser (wrap methodText)).kind = "program" := by
    rw [hparse]
    rfl
  have hparts : (methodParser (wrap methodText)).parts = [methodClass] := by
    rw [hparse]
    rfl
  have hclass : methodClass.kind = "class_declaration" := rfl
  obtain ⟨inner, outer, hinner, houter, hnodes, hedges, hdot, hjson⟩ :=
    snippet_drawn_as_unit hwrapped hunit hparts hclass Forest.methodsAndReturns
  have hvalue : (Forest.build Forest.methodsAndReturns
      (ofText methodParser methodText).project).toOption.map
        (fun forest => (forest.nodes.toList.map Forest.Node.source, forest.edges)) =
      some ([3, 8], #[⟨0, 1⟩]) := by
    decide +kernel
  rw [hinner] at hvalue
  obtain ⟨hsources, hlinks⟩ := Prod.mk.inj (Option.some.inj hvalue)
  have hmoved := Forest.map_source_of_nodes_eq hnodes
  rw [hsources] at hmoved
  exact ⟨hwrapped, hunit, hparts, hclass, inner, outer, hinner, houter, hsources, hmoved, hlinks,
    hedges, hdot, hjson⟩

end Source

end Java

end SyntaxForest
