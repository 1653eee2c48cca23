import SyntaxForest.Proofs.ParseErrors
import SyntaxForest.Proofs.Snippet

/-! Comments do not count.  The decision about snippets, the tree of a source and the
account of its first method are the same when the comments are taken out of the
parse trees. -/

namespace SyntaxForest.Java

/-! ## Fields -/

namespace Source
open ParseTree
variable (source : Source)

@[simp] theorem textOf_uncommented (tree : ParseTree) :
    source.textOf tree.uncommented = source.textOf tree := by
  rw [textOf, head_uncommented, textOf]

@[simp] theorem lineOf_uncommented (tree : ParseTree) :
    source.lineOf tree.uncommented = source.lineOf tree := by
  rw [lineOf, textOf_uncommented, lineOf]

/-- The text of a node does not need its comments taken out. -/
@[simp] theorem lineOf_comp_uncommented : source.lineOf ∘ uncommented = source.lineOf :=
  funext source.lineOf_uncommented

/-- The modifiers of a declaration are found with and without comments. -/
theorem modifierNodes_uncommented (tree : ParseTree) :
    modifierNodes tree.uncommented = (modifierNodes tree).map uncommented := by
  rw [modifierNodes, find?_namedChildren_uncommented tree (by decide) (by decide), modifierNodes]
  cases tree.namedChildren.find? fun child => child.kind = "modifiers" with
  | none => rfl
  | some modifiers =>
    exact filter_children_uncommented (by simp) fun child _ hcomment => by simp [hcomment]

theorem modifiers_uncommented (tree : ParseTree) :
    source.modifiers tree.uncommented = source.modifiers tree := by
  rw [modifiers, modifierNodes_uncommented, List.map_map, lineOf_comp_uncommented, modifiers]

theorem keywordModifiers_uncommented (tree : ParseTree) :
    source.keywordModifiers tree.uncommented = source.keywordModifiers tree := by
  have hkeyword : (fun modifier => !isAnnotated modifier) ∘ uncommented =
      fun modifier => !isAnnotated modifier := by
    funext modifier
    simp [isAnnotated]
  rw [keywordModifiers, modifierNodes_uncommented, List.filter_map, hkeyword, List.map_map,
    lineOf_comp_uncommented, keywordModifiers]

theorem isDefaultLabel_uncommented (tree : ParseTree) :
    source.isDefaultLabel tree.uncommented = source.isDefaultLabel tree := by
  rw [isDefaultLabel, textOf_uncommented, isDefaultLabel]

section
variable {tree : ParseTree} (h : tree.Settled)
include h

/-- The line of a field's text does not depend on comments. -/
theorem fieldLine?_uncommented (field : String) :
    source.fieldLine? tree.uncommented field = source.fieldLine? tree field := by
  rw [fieldLine?, h.fieldChild?_uncommented, Option.map_map, lineOf_comp_uncommented, fieldLine?]

theorem conditionLine?_uncommented :
    source.conditionLine? tree.uncommented = source.conditionLine? tree := by
  have hinner (outer : ParseTree) :
      source.lineOf (outer.uncommented.parts.headD outer.uncommented) =
        source.lineOf (outer.parts.headD outer) := by
    rw [parts_uncommented]
    cases outer.parts <;> simp
  rw [conditionLine?, h.fieldChild?_uncommented, find?_parts_uncommented (by simp),
    ← Option.map_or, Option.map_map, conditionLine?]
  exact Option.map_congr fun outer _ => hinner outer

/-- The parameters of a method are found with and without comments. -/
theorem parameterNodes_uncommented :
    parameterNodes tree.uncommented = (parameterNodes tree).map uncommented := by
  rw [parameterNodes, h.fieldChild?_uncommented, parameterNodes]
  cases tree.fieldChild? "parameters" with
  | none => rfl
  | some list =>
    rw [Option.map_some]
    dsimp only
    rw [parts_uncommented, List.filter_map]
    refine congrArg (List.map uncommented) (List.filter_congr fun child _ => ?_)
    simp

omit source in
theorem settled_of_mem_parameterNodes {parameter : ParseTree}
    (hparameter : parameter ∈ parameterNodes tree) : parameter.Settled := by
  rw [parameterNodes] at hparameter
  split at hparameter
  · rename_i list hlist
    have hpart := (List.mem_filter.mp hparameter).1
    exact (h.child (List.mem_of_find?_eq_some hlist)).child (List.mem_filter.mp hpart).1
  · cases hparameter

theorem parameterType?_uncommented :
    source.parameterType? tree.uncommented = source.parameterType? tree := by
  simp only [parameterType?, kind_uncommented, source.fieldLine?_uncommented h]
  rw [find?_parts_uncommented (by simp), find?_parts_uncommented (by simp), Option.map_map,
    Option.map_map, lineOf_comp_uncommented]

theorem parameterName?_uncommented :
    source.parameterName? tree.uncommented = source.parameterName? tree := by
  simp only [parameterName?, kind_uncommented, source.fieldLine?_uncommented h]
  rw [find?_parts_uncommented (by simp)]
  cases hfound : tree.parts.find? fun child => child.kind = "variable_declarator" with
  | none => rfl
  | some declarator =>
    have hchild := (List.mem_filter.mp (List.mem_of_find?_eq_some hfound)).1
    rw [Option.map_some, Option.bind_some, Option.bind_some,
      source.fieldLine?_uncommented (h.child hchild)]

/-- The names a declaration declares do not depend on comments. -/
theorem declaredNames_uncommented :
    source.declaredNames tree.uncommented = source.declaredNames tree := by
  rw [declaredNames, kind_uncommented, source.fieldLine?_uncommented h, h.fieldChildren_uncommented,
    List.filterMap_map, declaredNames]
  congr 1
  refine List.filterMap_congr fun declarator hdeclarator => ?_
  exact source.fieldLine?_uncommented (h.child (List.mem_filter.mp hdeclarator).1) "name"

/-- The fields a node gets do not depend on comments, whatever its category. -/
theorem fields_uncommented (category : Category) :
    source.fields category tree.uncommented = source.fields category tree := by
  have hkind : (fun child : ParseTree => decide (child.kind = "identifier")) ∘ uncommented =
      fun child => decide (child.kind = "identifier") := by
    funext child
    simp
  unfold fields
  split
  all_goals
    simp only [source.fieldLine?_uncommented h, source.conditionLine?_uncommented h,
      source.parameterType?_uncommented h, source.parameterName?_uncommented h,
      source.declaredNames_uncommented h, parameterNodes_uncommented h,
      h.fieldChildren_uncommented, modifiers_uncommented, isDefaultLabel_uncommented,
      parts_uncommented, kind_uncommented, hkind, List.find?_map, List.map_map, List.head?_map,
      List.getElem?_map, Option.map_map, lineOf_comp_uncommented]

end

/-! ## Trees -/

variable {source : Source} {other : Source}

/-- A node is stored as the same without its comments, by a source with the same text. -/
theorem treeNode_uncommented (htext : other.text = source.text)
    (hwrapped : other.isWrapped = source.isWrapped) {tree : ParseTree} (h : tree.Settled)
    (category : Category) (parent : Option Nat) :
    other.treeNode category parent tree.uncommented = source.treeNode category parent tree := by
  have hfields : other.fields category tree.uncommented = source.fields category tree :=
    (fields_congr htext category _).trans (source.fields_uncommented h category)
  simp only [treeNode, span, line, head_uncommented, hfields, hwrapped]

mutual

/-- One step of the projection: a settled node grows the same tree without its comments, and so do
the nodes below it. -/
theorem plant_uncommented (htext : other.text = source.text)
    (hwrapped : other.isWrapped = source.isWrapped) (above : String) (parent : Nat) (grown : Tree) :
    (tree : ParseTree) → tree.Settled →
      other.plant above parent grown tree.uncommented = source.plant above parent grown tree
  | .node head children, h => by
    have hcategory := h.category_uncommented (some above)
    have hnode := treeNode_uncommented htext hwrapped h
      ((ParseTree.node head children).category (some above)) (some parent)
    rw [uncommented] at hcategory hnode ⊢
    rw [plant, plant, hcategory, hnode]
    exact plantAll_uncommented htext hwrapped head.kind grown.size _ children fun child hchild =>
      h.child hchild

/-- Settled nodes, one after another, grow the same tree without the comments among them. -/
theorem plantAll_uncommented (htext : other.text = source.text)
    (hwrapped : other.isWrapped = source.isWrapped) (above : String) (parent : Nat) (grown : Tree) :
    (trees : List ParseTree) → (∀ tree ∈ trees, tree.Settled) →
      other.plantAll above parent grown (uncommentedAll trees) =
        source.plantAll above parent grown trees
  | [], _ => by
    rw [uncommentedAll, plantAll, plantAll]
  | tree :: trees, h => by
    have hrest := fun grown => plantAll_uncommented htext hwrapped above parent grown trees
      fun later hlater => h later (List.mem_cons_of_mem _ hlater)
    rw [uncommentedAll, plantAll]
    by_cases hcomment : tree.isComment = true
    · have hpart : tree.isPart = false := by simp [isPart, hcomment]
      rw [if_pos hcomment, hrest, hpart, if_neg Bool.false_ne_true]
    · rw [if_neg hcomment, plantAll, hrest, isPart_uncommented,
        plant_uncommented htext hwrapped above parent grown tree (h tree List.mem_cons_self)]

end

/-! ## Sources -/

/-- A source whose parse tree has its comments taken out. -/
def uncommented (source : Source) : Source where
  text := source.text
  tree := source.tree.uncommented
  isWrapped := source.isWrapped

/-- Whether a unit is declared at the top does not depend on comments. -/
theorem looksLikeUnit_uncommented (tree : ParseTree) :
    looksLikeUnit tree.uncommented = looksLikeUnit tree :=
  any_namedChildren_uncommented tree (by decide) (by decide)

theorem hasTopLevelMethod_uncommented (tree : ParseTree) :
    hasTopLevelMethod tree.uncommented = hasTopLevelMethod tree := by
  have hline : "line_comment" ∉ ["method_declaration"] := by decide
  have hblock : "block_comment" ∉ ["method_declaration"] := by decide
  simpa [hasTopLevelMethod] using any_namedChildren_uncommented tree hline hblock

/-- The decision about a snippet does not see comments. -/
theorem ofText_uncommented {parse : Parser} {text : String} (hdirect : (parse text).Settled)
    (hwrapped : (parse (wrap text)).Settled) :
    ofText (fun text => (parse text).uncommented) text = (ofText parse text).uncommented := by
  simp only [ofText, looksLikeUnit_uncommented, hasTopLevelMethod_uncommented,
    errorCount_uncommented _ hdirect, errorCount_uncommented _ hwrapped]
  split
  · rfl
  · split <;> rfl

/-- The tree of a text is the parser's, of the text as it stands or with a class around it. -/
theorem ofText_tree (parse : Parser) (text : String) :
    (ofText parse text).tree = parse text ∨ (ofText parse text).tree = parse (wrap text) := by
  rw [tree_ofText]
  split
  · exact .inr rfl
  · exact .inl rfl

/-- The node projection starts at is the same one without comments. -/
theorem container_uncommented (source : Source) :
    source.uncommented.container = (source.container.1, source.container.2.uncommented) := by
  rw [container, uncommented, find?_namedChildren_uncommented source.tree (by decide) (by decide),
    container]
  cases source.isWrapped with
  | false => rfl
  | true =>
    cases source.tree.namedChildren.find? fun child => child.kind = "class_declaration" with
    | none => rfl
    | some snippet => simp

theorem settled_container (h : source.tree.Settled) : source.container.2.Settled := by
  rw [container]
  split
  · split
    · rename_i snippet hfound
      exact h.child (List.mem_filter.mp (List.mem_of_find?_eq_some hfound)).1
    · exact h
  · exact h

/-- A settled source projects to the same tree without its comments. -/
theorem project_uncommented (h : source.tree.Settled) :
    source.uncommented.project = source.project := by
  have hcontainer := settled_container h
  have hcategory : source.uncommented.containerCategory = source.containerCategory := by
    rw [containerCategory, container_uncommented]
    dsimp only
    rw [hcontainer.category_uncommented, containerCategory]
  have htext : source.uncommented.text = source.text := rfl
  have hwrapped : source.uncommented.isWrapped = source.isWrapped := rfl
  have hnode := treeNode_uncommented htext hwrapped hcontainer source.containerCategory none
  rw [project, hcategory, container_uncommented]
  dsimp only
  rw [hnode, kind_uncommented, children_uncommented, ← uncommentedAll_eq, project]
  exact plantAll_uncommented htext hwrapped _ Tree.root _ _ fun child hchild =>
    hcontainer.child hchild

end Source

/-! ## The first method -/

namespace MethodDump
open ParseTree
variable {source : Source}

theorem ofMethod_uncommented {method : ParseTree} (h : method.Settled) :
    ofMethod source.uncommented method.uncommented = ofMethod source method := by
  -- the account reads the text alone
  have htext :
      ofMethod source.uncommented method.uncommented = ofMethod source method.uncommented :=
    rfl
  have hparameters : (Source.parameterNodes method.uncommented).map (fun parameter =>
        ((source.parameterName? parameter).getD "", (source.parameterType? parameter).getD "")) =
      (Source.parameterNodes method).map fun parameter =>
        ((source.parameterName? parameter).getD "", (source.parameterType? parameter).getD "") := by
    rw [Source.parameterNodes_uncommented h, List.map_map]
    refine List.map_congr_left fun parameter hparameter => ?_
    have hsettled := Source.settled_of_mem_parameterNodes h hparameter
    rw [Function.comp_apply, source.parameterName?_uncommented hsettled,
      source.parameterType?_uncommented hsettled]
  have hvarargs : ((Source.parameterNodes method.uncommented).getLast?.any fun last =>
        last.kind = "spread_parameter") =
      (Source.parameterNodes method).getLast?.any fun last => last.kind = "spread_parameter" := by
    rw [Source.parameterNodes_uncommented h, List.getLast?_map, Option.any_map]
    simp
  have hstatements : (method.uncommented.fieldChild? "body").map (fun body =>
        body.parts.map fun statement =>
          (statement.category (some body.kind), source.lineOf statement)) =
      (method.fieldChild? "body").map fun body =>
        body.parts.map fun statement =>
          (statement.category (some body.kind), source.lineOf statement) := by
    rw [h.fieldChild?_uncommented, Option.map_map]
    refine Option.map_congr fun body hbody => ?_
    have hsettled := h.child (List.mem_of_find?_eq_some hbody)
    rw [Function.comp_apply, parts_uncommented, List.map_map]
    refine List.map_congr_left fun statement hstatement => ?_
    have hpart := hsettled.child (List.mem_filter.mp hstatement).1
    rw [Function.comp_apply, kind_uncommented, hpart.category_uncommented,
      Source.lineOf_uncommented]
  rw [htext, ofMethod, hparameters, hvarargs, hstatements, source.fieldLine?_uncommented h,
    source.fieldLine?_uncommented h, source.keywordModifiers_uncommented, kind_uncommented,
    ofMethod]

/-- The first method of a settled source is dumped the same without comments. -/
theorem ofSource_uncommented (h : source.tree.Settled) :
    ofSource source.uncommented = ofSource source := by
  obtain ⟨hfirst, hsettled⟩ :=
    firstMethod?_uncommented source.container.2 (Source.settled_container h)
  rw [ofSource, Source.container_uncommented, hfirst, ofSource]
  cases hmethod : source.container.2.firstMethod? with
  | none => rfl
  | some method =>
    exact congrArg Except.ok (ofMethod_uncommented (hsettled method hmethod))

end MethodDump

namespace Source
open ParseTree

/-- **Comments are transparent.**  Where the comments in the parse of a text and of the
wrapped text stand as extras, taking them out leaves all other nodes and changes
nothing: not whether the text is taken as a snippet, nor the container, nor the tree,
nor the account of the first method. -/
theorem comments_are_transparent {parse : Parser} {text : String}
    (hdirect : (parse text).CommentsAreExtras)
    (hwrapped : (parse (wrap text)).CommentsAreExtras) :
    let source := ofText parse text
    let bare := ofText (fun text => (parse text).uncommented) text
    bare.tree.descendants.map head =
      (source.tree.descendants.filter fun node => !node.isComment).map head ∧
    bare.text = source.text ∧
    bare.isWrapped = source.isWrapped ∧
    bare.container.2.kind = source.container.2.kind ∧
    bare.project = source.project ∧
    MethodDump.ofSource bare = MethodDump.ofSource source := by
  intro source bare
  have hbare : bare = source.uncommented := ofText_uncommented hdirect.settled hwrapped.settled
  have hsettled : source.tree.Settled := by
    rcases ofText_tree parse text with htree | htree
    · exact htree ▸ hdirect.settled
    · exact htree ▸ hwrapped.settled
  rw [hbare]
  refine ⟨map_head_descendants_uncommented source.tree hsettled, rfl, rfl, ?_,
    project_uncommented hsettled, MethodDump.ofSource_uncommented hsettled⟩
  rw [container_uncommented, kind_uncommented]

/-- A method with a comment in it, as a text. -/
def commentedText : String := "void f() \x7b /* block */ \x7d"

/-- The parse tree of `commentedText` behind so many bytes and rows. -/
def commentedTree (bytes row : Nat) : ParseTree :=
  cleanNode "method_declaration" none bytes (bytes + 24) row
    [cleanNode "void_type" (some "type") bytes (bytes + 4) row [],
     cleanNode "identifier" (some "name") (bytes + 5) (bytes + 6) row [],
     cleanNode "formal_parameters" (some "parameters") (bytes + 6) (bytes + 8) row
      [token "(" (bytes + 6) row, token ")" (bytes + 7) row],
     cleanNode "block" (some "body") (bytes + 9) (bytes + 24) row
      [token "\x7b" (bytes + 9) row,
       cleanNode "block_comment" none (bytes + 11) (bytes + 22) row [],
       token "\x7d" (bytes + 23) row]]

/-- The parse tree of the class around `commentedText`. -/
def commentedClass : ParseTree :=
  endingOn 2 <| cleanNode "class_declaration" none 0 52 0
    [token "class" 0 0,
     cleanNode "identifier" (some "name") 6 23 0 [],
     endingOn 2 <| cleanNode "class_body" (some "body") 24 52 0
      [token "\x7b" 24 0, commentedTree 26 1, token "\x7d" 51 2]]

/-- A parser that knows `commentedText`, wrapped and not. -/
def commentedParser : Parser := fun text =>
  if text = wrap commentedText then endingOn 3 (cleanNode "program" none 0 53 0 [commentedClass])
  else cleanNode "program" none 0 24 0 [commentedTree 0 0]

theorem comments_are_transparent_block :
    (commentedParser commentedText).CommentsAreExtras ∧
    (commentedParser (wrap commentedText)).CommentsAreExtras ∧
    (commentedParser (wrap commentedText)).descendants.any isComment = true ∧
    let source := ofText commentedParser commentedText
    let bare := ofText (fun text => (commentedParser text).uncommented) commentedText
    source.isWrapped = true ∧ bare.isWrapped = true ∧
    bare.tree.descendants.length + 1 = source.tree.descendants.length ∧
    bare.project = source.project ∧ bare.project.size = 8 ∧
    MethodDump.ofSource bare = MethodDump.ofSource source := by
  have hdirect : (commentedParser commentedText).CommentsAreExtras :=
    ⟨by decide +kernel, by decide +kernel, by decide +kernel⟩
  have hwrapped : (commentedParser (wrap commentedText)).CommentsAreExtras :=
    ⟨by decide +kernel, by decide +kernel, by decide +kernel⟩
  obtain ⟨-, -, hsame, -, htree, hdump⟩ := comments_are_transparent hdirect hwrapped
  have hsnippet : (ofText commentedParser commentedText).isWrapped = true := by decide +kernel
  have hcount : (ofText (fun text => (commentedParser text).uncommented)
      commentedText).tree.descendants.length + 1 =
        (ofText commentedParser commentedText).tree.descendants.length := by
    decide +kernel
  have hsize : (ofText commentedParser commentedText).project.size = 8 := by decide +kernel
  exact ⟨hdirect, hwrapped, by decide +kernel, hsnippet, hsame.trans hsnippet, hcount, htree,
    (congrArg Tree.size htree).trans hsize, hdump⟩

end Source

end SyntaxForest.Java
