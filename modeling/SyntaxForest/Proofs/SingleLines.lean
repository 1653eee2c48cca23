import SyntaxForest.Java.Rows
import SyntaxForest.Label
import SyntaxForest.Proofs.ForestDot
import SyntaxForest.Proofs.OutlineNesting
import SyntaxForest.Proofs.Projection
import SyntaxForest.Proofs.Words

/-! Texts on single lines.  An outline writes the texts of fields as they are stored,
and nothing in it keeps a newline from breaking an entry.  In the tree of a Java source
it need not: all that is stored there was collapsed when it was read.  So every entry
is a line, and a label, which collapses what it shows, shows what is stored. -/

namespace SyntaxForest

namespace Text

/-- A text without a newline. -/
def IsLine (text : String) : Prop :=
  '\n' ∉ text.toList

instance (text : String) : Decidable (IsLine text) :=
  inferInstanceAs (Decidable ('\n' ∉ text.toList))

/-- A collapsed text is one line. -/
theorem IsCollapsed.isLine {text : String} (h : IsCollapsed text) : IsLine text := by
  intro hmem
  rw [← h, collapse, String.toList_ofList] at hmem
  rcases eq_space_or_of_mem_collapseChars hmem with hspace | hblank
  · exact absurd hspace (by decide)
  · exact absurd hblank (by decide)

theorem IsLine.append {first second : String} (h : IsLine first) (h' : IsLine second) :
    IsLine (first ++ second) := by
  rw [IsLine, String.toList_append, List.mem_append]
  exact not_or.mpr ⟨h, h'⟩

theorem isLine_join {texts : List String} (h : ∀ text ∈ texts, IsLine text) :
    IsLine (String.join texts) := by
  rw [IsLine, String.toList_join]
  intro hmem
  obtain ⟨text, htext, hnewline⟩ := List.mem_flatMap.mp hmem
  exact h text htext hnewline

/-- Lines with a line between them make one line. -/
theorem isLine_intercalate {between : String} {texts : List String} (hbetween : IsLine between)
    (h : ∀ text ∈ texts, IsLine text) : IsLine (between.intercalate texts) := by
  rw [IsLine, String.toList_intercalate]
  intro hmem
  rcases mem_of_mem_intercalate hmem with hnewline | ⟨chars, hchars, hnewline⟩
  · exact hbetween hnewline
  · obtain ⟨text, htext, rfl⟩ := List.mem_map.mp hchars
    exact h text htext hnewline

theorem isLine_decimal (n : Nat) : IsLine (toString n) := by
  intro hmem
  exact absurd (isDigit_of_mem_toString hmem) (by decide)

theorem isLine_blanks (n : Nat) : IsLine (String.ofList (List.replicate n ' ')) := by
  rw [IsLine, String.toList_ofList, List.mem_replicate]
  exact fun h => absurd h.2 (by decide)

/-- Lines that end in a newline each have as many newlines as there are lines. -/
theorem count_newline_join {texts : List String}
    (h : ∀ text ∈ texts, ∃ line, text = line ++ "\n" ∧ IsLine line) :
    (String.join texts).toList.count '\n' = texts.length := by
  induction texts with
  | nil => rfl
  | cons text texts ih =>
    obtain ⟨line, rfl, hline⟩ := h text List.mem_cons_self
    have hrest := ih fun each heach => h each (List.mem_cons_of_mem _ heach)
    rw [String.join_cons, String.toList_append, String.toList_append, List.count_append,
      List.count_append, hrest, List.count_eq_zero.mpr hline, List.length_cons, Nat.add_comm]
    rfl

end Text

theorem Category.isLine_name (category : Category) : Text.IsLine category.name := by
  intro hmem
  exact absurd (category.name_spec.2 _ hmem) (by decide)

theorem Field.isLine_title (field : Field) : Text.IsLine field.title := by
  cases field <;> decide

/-! ## Values and nodes -/

/-- The texts that a value holds. -/
def FieldValue.texts : FieldValue → List String
  | .text content => [content]
  | .list items => items
  | .flag _ => []

@[simp] theorem FieldValue.texts_text (content : String) : (text content).texts = [content] := rfl

@[simp] theorem FieldValue.texts_list (items : List String) : (list items).texts = items := rfl

@[simp] theorem FieldValue.texts_flag (value : Bool) : (flag value).texts = [] := rfl

/-- A value of single lines is shown on one. -/
theorem FieldValue.isLine_shown {value : FieldValue} (h : ∀ text ∈ value.texts, Text.IsLine text) :
    Text.IsLine value.shown := by
  cases value with
  | text content => exact h content List.mem_cons_self
  | list items => exact Text.isLine_intercalate (by decide) h
  | flag value => cases value <;> decide

theorem Outline.isLine_valueText {value : FieldValue}
    (h : ∀ text ∈ value.texts, Text.IsLine text) : Text.IsLine (valueText value) := by
  have hshown := FieldValue.isLine_shown h
  cases value with
  | text content => exact hshown
  | list items => exact (Text.IsLine.append (by decide) hshown).append (by decide)
  | flag value => exact hshown

/-- The texts of an entry are lines, so the entry is one. -/
theorem Outline.exists_line_of_entry (outline : Outline) (level : Nat) {node : Tree.Node}
    (h : ∀ entry ∈ node.fields, ∀ text ∈ entry.2.texts, Text.IsLine text) :
    ∃ line, outline.entry level node = line ++ "\n" ∧ Text.IsLine line := by
  refine ⟨_, rfl, ((Text.isLine_blanks _).append node.category.isLine_name).append ?_ |>.append ?_⟩
  · -- the lines that the node covers
    split
    · split
      · exact ((((by decide : Text.IsLine " [").append (Text.isLine_decimal _)).append
          (by decide)).append (Text.isLine_decimal _)).append (by decide)
      · decide
    · decide
  · -- the fields
    split
    · refine Text.isLine_join fun text htext => ?_
      obtain ⟨entry, hentry, rfl⟩ := List.mem_map.mp htext
      exact (((by decide : Text.IsLine " ").append entry.1.isLine_title).append
        (by decide)).append (isLine_valueText (h entry hentry))
    · decide

/-- Where the texts of all nodes are lines, an outline has a line for each row. -/
theorem Outline.count_newline_text {tree : Tree} (h : tree.Linked) (outline : Outline)
    (hlines : ∀ {id node}, tree.get? id = some node →
      ∀ entry ∈ node.fields, ∀ text ∈ entry.2.texts, Text.IsLine text) :
    (∀ id ∈ outline.rows tree, ∃ line, outline.rowText tree id = line ++ "\n" ∧ Text.IsLine line) ∧
      (String.join ((outline.rows tree).map (outline.rowText tree))).toList.count '\n' =
        (outline.rows tree).length := by
  have hrow : ∀ id ∈ outline.rows tree,
      ∃ line, outline.rowText tree id = line ++ "\n" ∧ Text.IsLine line := by
    intro id hid
    obtain ⟨node, hnode⟩ := Tree.exists_get? ((mem_rows_iff h).mp hid).1
    rw [rowText, hnode]
    exact outline.exists_line_of_entry _ (hlines hnode)
  refine ⟨hrow, ?_⟩
  rw [Text.count_newline_join, List.length_map]
  intro text htext
  obtain ⟨id, hid, rfl⟩ := List.mem_map.mp htext
  exact hrow id hid

/-- A value of collapsed texts reads the same on a label as in an outline. -/
theorem Label.valueText_eq_shown {value : FieldValue} (h : Text.AllCollapsed value.texts) :
    valueText value = value.shown := by
  cases value with
  | text content => exact h content List.mem_cons_self
  | list items =>
    have hitems : items.map Text.collapse = items :=
      (List.map_congr_left h).trans (List.map_id items)
    rw [valueText, hitems]
  | flag value => rfl

/-- A detailed label shows collapsed fields as they are. -/
theorem Label.detailed_eq_shown {node : Tree.Node}
    (h : ∀ entry ∈ node.fields, Text.AllCollapsed entry.2.texts) :
    detailed node = "\n".intercalate (node.category.name ::
      (lines node.category).map fun row =>
        row.1 ++ ": " ++ ((node.field? row.2).map FieldValue.shown).getD "") := by
  have hvalue (field : Field) :
      (node.field? field).map valueText = (node.field? field).map FieldValue.shown := by
    cases hfield : node.field? field with
    | none => rfl
    | some value =>
      obtain ⟨before, after, hfields, _⟩ := List.lookup_eq_some_iff.mp hfield
      rw [Option.map_some, Option.map_some,
        valueText_eq_shown (h (field, value) (by simp [hfields]))]
  simp only [detailed, line, hvalue]

/-! ## What is read off a parse tree -/

namespace Java.Source
variable {source : Source}

/-- The line taken from a source for a node is collapsed. -/
theorem isCollapsed_lineOf (source : Source) (tree : ParseTree) :
    Text.IsCollapsed (source.lineOf tree) :=
  Text.isCollapsed_ofList _

theorem allCollapsed_lines (source : Source) (trees : List ParseTree) :
    Text.AllCollapsed (trees.map source.lineOf) := by
  intro text htext
  obtain ⟨tree, _, rfl⟩ := List.mem_map.mp htext
  exact source.isCollapsed_lineOf tree

theorem allCollapsed_line? (source : Source) (found : Option ParseTree) :
    Text.AllCollapsed (found.map source.lineOf).toList := by
  rw [Option.toList_map]
  exact source.allCollapsed_lines _

/-- The line taken for a field is collapsed. -/
theorem allCollapsed_fieldLine? (source : Source) (tree : ParseTree) (field : String) :
    Text.AllCollapsed (source.fieldLine? tree field).toList :=
  source.allCollapsed_line? _

theorem allCollapsed_conditionLine? (source : Source) (tree : ParseTree) :
    Text.AllCollapsed (source.conditionLine? tree).toList := by
  intro text htext
  obtain ⟨outer, _, rfl⟩ := Option.map_eq_some_iff.mp (Option.mem_toList.mp htext)
  exact source.isCollapsed_lineOf _

theorem allCollapsed_parameterType? (source : Source) (tree : ParseTree) :
    Text.AllCollapsed (source.parameterType? tree).toList := by
  unfold parameterType?
  split
  · exact source.allCollapsed_line? _
  · exact source.allCollapsed_line? _
  · exact source.allCollapsed_fieldLine? _ _

theorem allCollapsed_parameterName? (source : Source) (tree : ParseTree) :
    Text.AllCollapsed (source.parameterName? tree).toList := by
  unfold parameterName?
  split
  · intro text htext
    obtain ⟨declarator, _, hname⟩ := Option.bind_eq_some_iff.mp (Option.mem_toList.mp htext)
    exact source.allCollapsed_fieldLine? declarator _ text (Option.mem_toList.mpr hname)
  · exact source.allCollapsed_fieldLine? _ _

/-- The names taken from a declaration are collapsed. -/
theorem allCollapsed_declaredNames (source : Source) (tree : ParseTree) :
    Text.AllCollapsed (source.declaredNames tree) := by
  unfold declaredNames
  split
  · exact source.allCollapsed_fieldLine? _ _
  · intro text htext
    obtain ⟨declarator, _, hname⟩ := List.mem_filterMap.mp htext
    exact source.allCollapsed_fieldLine? declarator _ text (Option.mem_toList.mpr hname)

theorem forall_mem_textField {field : Field} {found : Option String} :
    (∀ entry ∈ textField field found, Text.AllCollapsed entry.2.texts) ↔
      Text.AllCollapsed found.toList := by
  cases found with
  | none => simp [textField, Text.allCollapsed_nil]
  | some text => simp [textField]

/-- The words for the two kinds of type are collapsed. -/
theorem isCollapsed_kind (isInterface : Prop) [Decidable isInterface] :
    Text.IsCollapsed (if isInterface then "Interface" else "Class") := by
  unfold Text.IsCollapsed
  split <;> decide

/-- **Every field is read on one line**, whatever the category reads. -/
theorem allCollapsed_fields (source : Source) (category : Category) (tree : ParseTree) :
    ∀ entry ∈ source.fields category tree, Text.AllCollapsed entry.2.texts := by
  unfold fields
  split <;>
    simp only [List.forall_mem_append, List.forall_mem_cons, List.not_mem_nil,
      false_imp_iff, implies_true, forall_mem_textField, FieldValue.texts_text,
      FieldValue.texts_list, FieldValue.texts_flag,
      Text.allCollapsed_nil, Text.allCollapsed_singleton, isCollapsed_kind, modifiers,
      allCollapsed_lines, allCollapsed_line?, allCollapsed_fieldLine?,
      allCollapsed_conditionLine?, allCollapsed_parameterType?, allCollapsed_parameterName?,
      allCollapsed_declaredNames, and_true]

/-- Every text that projection puts into a tree is collapsed. -/
theorem allCollapsed_project (source : Source) {id : Nat} {node : Tree.Node}
    (h : source.project.get? id = some node) :
    ∀ entry ∈ node.fields, Text.AllCollapsed entry.2.texts := by
  obtain ⟨entry, hentry⟩ : ∃ entry, source.listing[id]? = some entry := by
    refine ⟨_, List.getElem?_eq_getElem ?_⟩
    rw [← source.tells_project.size_eq]
    exact Tree.lt_size_of_get? h
  obtain ⟨found, hfound, hstored⟩ := source.tells_project.get? hentry
  obtain rfl : node = found := Option.some.inj (h.symm.trans hfound)
  -- the tree stores what was read of the entry, and nothing else
  rw [hstored.fields_eq]
  exact source.allCollapsed_fields _ _

/-- **The tree of a source is written on single lines.**  Every text that it stores is
collapsed, and so without a newline.  The entry of a node in an outline is thus a line,
and the outline, which is refused only where an entry would be indented too far, has
a newline for each entry and no other.  A detailed label shows the fields as they are
stored. -/
theorem project_on_single_lines (source : Source) :
    (∀ id node, source.project.get? id = some node →
      ∀ entry ∈ node.fields, ∀ text ∈ entry.2.texts,
        Text.collapse text = text ∧ '\n' ∉ text.toList) ∧
    (∀ outline : Outline,
      let rows := outline.rows source.project
      let text := String.join (rows.map (outline.rowText source.project))
      outline.render source.project =
        (if ∀ id ∈ rows, outline.level source.project id * outline.indent ≤ Outline.indentLimit then
          .ok text
        else .error .tooWide) ∧
      (∀ id ∈ rows, ∃ line,
        outline.rowText source.project id = line ++ "\n" ∧ '\n' ∉ line.toList) ∧
      text.toList.count '\n' = rows.length) ∧
    (∀ id node, source.project.get? id = some node →
      Label.text true node = "\n".intercalate (node.category.name ::
        (Label.lines node.category).map fun row =>
          row.1 ++ ": " ++ ((node.field? row.2).map FieldValue.shown).getD "")) := by
  have hlinked := source.grow_eq_project.2.linked
  refine ⟨?_, ?_, ?_⟩
  · intro id node hnode entry hentry text htext
    have hcollapsed := source.allCollapsed_project hnode entry hentry text htext
    exact ⟨hcollapsed, hcollapsed.isLine⟩
  · intro outline
    have hlines : ∀ {id node}, source.project.get? id = some node →
        ∀ entry ∈ node.fields, ∀ text ∈ entry.2.texts, Text.IsLine text :=
      fun hnode entry hentry text htext =>
        (source.allCollapsed_project hnode entry hentry text htext).isLine
    exact ⟨Outline.render_eq_rows hlinked outline, outline.count_newline_text hlinked hlines⟩
  · intro id node hnode
    exact Label.detailed_eq_shown (source.allCollapsed_project hnode)

/-- A return statement that goes on in the next line. -/
def brokenReturn : Source where
  text := "return a +\n\tb;"
  tree :=
    .node (.ofFlags "return_statement" 1 none 0 14 0 1)
      [.node (.ofFlags "binary_expression" 1 none 7 13 0 1) []]
  isWrapped := false

theorem project_on_single_lines_brokenReturn :
    ∃ node text, brokenReturn.project.get? Tree.root = some node ∧
      node.fields = [(.expression, .text "a + b")] ∧
      Text.collapse "a + b" = "a + b" ∧
      Outline.render {} brokenReturn.project = .ok text ∧ text.toList.count '\n' = 2 ∧
      Label.text true node = "ReturnStatement\nReturns: a + b" := by
  obtain ⟨hfields, houtline, hlabel⟩ := project_on_single_lines brokenReturn
  obtain ⟨node, hnode⟩ := Tree.exists_get? (by decide : Tree.root < brokenReturn.project.size)
  have hvalue : (brokenReturn.project.get? Tree.root).map
      (fun node => (node.category, node.fields)) =
      some (.returnStatement, [(.expression, .text "a + b")]) := by
    decide +kernel
  rw [hnode] at hvalue
  obtain ⟨hcategory, hentries⟩ := Prod.mk.inj (Option.some.inj hvalue)
  have hcollapsed := hfields _ node hnode (.expression, .text "a + b") (by simp [hentries]) "a + b"
    List.mem_cons_self
  have hrows : Outline.rows {} brokenReturn.project = [0, 1] := by decide +kernel
  obtain ⟨hrender, -, hcount⟩ := houtline {}
  rw [hrows] at hrender hcount
  refine ⟨node, _, hnode, hentries, hcollapsed.1, ?_, hcount, ?_⟩
  · rw [hrender, if_pos (by decide +kernel)]
  · simp only [hlabel _ node hnode, hcategory, Tree.Node.field?, hentries]
    decide +kernel

end Java.Source

end SyntaxForest
