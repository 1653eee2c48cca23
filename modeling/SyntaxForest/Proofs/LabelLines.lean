import Mathlib.Data.List.Chain
import Mathlib.Data.List.Forall2
import SyntaxForest.Proofs.SingleLines

/-! The lines of a detailed label.  A field may hold any text, with breaks, tabs and
runs of spaces.  A label keeps none of them: it collapses every text that it shows, so
its newlines are those between its lines, and its other blanks are single spaces.  What
it says of a field depends on the words of the field alone. -/

namespace SyntaxForest

namespace Text

/-- A text whose blanks are newlines and single spaces, the first character no space.
Such texts can be written one after the other. -/
structure IsTidy (text : List Char) : Prop where
  blank_eq : ∀ c ∈ text, isBlank c = true → c = ' ' ∨ c = '\n'
  isChain : text.IsChain fun c d => ¬ (c = ' ' ∧ d = ' ')
  head?_ne : text.head? ≠ some ' '

/-- Tidiness as tests on characters and on neighbours, so that it can be computed. -/
theorem isTidy_iff {text : List Char} :
    IsTidy text ↔ (text.all fun c => !isBlank c || c = ' ' || c = '\n') = true ∧
      (text.IsChain fun c d => ¬ (c = ' ' ∧ d = ' ')) ∧ text.head? ≠ some ' ' := by
  have hblank : (text.all fun c => !isBlank c || c = ' ' || c = '\n') = true ↔
      ∀ c ∈ text, isBlank c = true → c = ' ' ∨ c = '\n' := by
    simp only [List.all_eq_true, Bool.or_eq_true, Bool.not_eq_true', decide_eq_true_iff, or_assoc]
    simp only [← Bool.not_eq_true, ← imp_iff_not_or]
  rw [hblank]
  exact ⟨fun h => ⟨h.blank_eq, h.isChain, h.head?_ne⟩, fun h => ⟨h.1, h.2.1, h.2.2⟩⟩

instance (text : List Char) : Decidable (IsTidy text) :=
  decidable_of_iff' _ isTidy_iff

theorem isTidy_nil : IsTidy [] := by
  decide

/-- Tidy texts side by side are tidy: the second does not open with a space. -/
theorem IsTidy.append {front back : List Char} (hfront : IsTidy front) (hback : IsTidy back) :
    IsTidy (front ++ back) where
  blank_eq := by
    intro c hc
    rcases List.mem_append.mp hc with hin | hin
    · exact hfront.blank_eq c hin
    · exact hback.blank_eq c hin
  isChain := by
    rw [List.isChain_append]
    refine ⟨hfront.isChain, hback.isChain, ?_⟩
    rintro c - d hd ⟨-, rfl⟩
    exact hback.head?_ne hd
  head?_ne := by
    cases front with
    | nil => exact hback.head?_ne
    | cons c front => exact hfront.head?_ne

/-- Tidy items with something tidy between them are tidy. -/
theorem IsTidy.intercalate {between : List Char} {list : List (List Char)}
    (hbetween : IsTidy between) (h : ∀ item ∈ list, IsTidy item) :
    IsTidy (between.intercalate list) := by
  induction list with
  | nil => exact isTidy_nil
  | cons item list ih =>
    have hitem := h item List.mem_cons_self
    have hrest := ih fun each heach => h each (List.mem_cons_of_mem _ heach)
    cases list with
    | nil =>
      rw [List.intercalate_singleton]
      exact hitem
    | cons next list =>
      rw [List.intercalate_cons_cons]
      exact (hitem.append hbetween).append hrest

/-- Two spaces never stand side by side. -/
theorem IsTidy.not_infix {text : List Char} (h : IsTidy text) : ¬ [' ', ' '] <:+: text := by
  rintro ⟨before, after, rfl⟩
  have hpair := (List.isChain_append.mp (List.isChain_append.mp h.isChain).1).2.1
  exact absurd hpair (by decide)

theorem IsWord.ne_space {word : List Char} (h : IsWord word) {c : Char} (hc : c ∈ word) :
    c ≠ ' ' := by
  rintro rfl
  exact absurd (h.not_blank _ hc) (by decide)

theorem IsWord.isTidy {word : List Char} (h : IsWord word) : IsTidy word where
  blank_eq := by
    intro c hc hblank
    exact absurd hblank (by simp [h.not_blank c hc])
  isChain := by
    refine (List.pairwise_of_forall_mem_list ?_).isChain
    rintro c hc - - ⟨hspace, -⟩
    exact h.ne_space hc hspace
  head?_ne := fun hhead => h.ne_space (List.mem_of_head? hhead) rfl

/-- A space may follow a word when none follows the space. -/
theorem IsWord.isTidy_append {word rest : List Char} (hword : IsWord word) (hrest : IsTidy rest) :
    IsTidy (word ++ ' ' :: rest) where
  blank_eq := by
    intro c hc hblank
    rcases List.mem_append.mp hc with hin | hin
    · exact hword.isTidy.blank_eq c hin hblank
    · rcases List.mem_cons.mp hin with rfl | hin
      · exact .inl rfl
      · exact hrest.blank_eq c hin hblank
  isChain := by
    rw [List.isChain_append, List.isChain_cons]
    refine ⟨hword.isTidy.isChain, ⟨?_, hrest.isChain⟩, ?_⟩
    · rintro d hd ⟨-, rfl⟩
      exact hrest.head?_ne hd
    · rintro c hc - - ⟨hspace, -⟩
      exact hword.ne_space (List.mem_of_getLast? hc) hspace
  head?_ne := by
    rw [List.head?_append_of_ne_nil _ hword.ne_nil]
    exact hword.isTidy.head?_ne

/-- Words with one space between neighbours are tidy, though a space alone is not. -/
theorem isTidy_intercalate_words {list : List (List Char)} (h : ∀ word ∈ list, IsWord word) :
    IsTidy ([' '].intercalate list) := by
  induction list with
  | nil => exact isTidy_nil
  | cons word list ih =>
    have hword := h word List.mem_cons_self
    have hrest := ih fun each heach => h each (List.mem_cons_of_mem _ heach)
    cases list with
    | nil =>
      rw [List.intercalate_singleton]
      exact hword.isTidy
    | cons next list =>
      rw [List.intercalate_cons_cons, List.append_assoc, List.singleton_append]
      exact hword.isTidy_append hrest

theorem isTidy_collapse (text : String) : IsTidy (collapse text).toList := by
  rw [collapse, String.toList_ofList]
  exact isTidy_intercalate_words fun _ hword => isWord_of_mem_words hword

theorem isLine_collapse (text : String) : IsLine (collapse text) :=
  (isCollapsed_ofList text.toList).isLine

theorem isBlank_of_isAlpha {c : Char} (h : c.isAlpha = true) : isBlank c = false := by
  have hcode : 65 ≤ c.toNat ∧ c.toNat ≤ 90 ∨ 97 ≤ c.toNat ∧ c.toNat ≤ 122 := by
    change (decide ('A'.val ≤ c.val ∧ c.val ≤ 'Z'.val) ||
      (decide ('a'.val ≤ c.val) && decide (c.val ≤ 'z'.val))) = true at h
    rw [Bool.or_eq_true, Bool.and_eq_true, decide_eq_true_iff, decide_eq_true_iff,
      decide_eq_true_iff] at h
    exact h
  simp only [isBlank, blankRanges, Ranges.contain, List.any_cons, List.any_nil,
    Bool.or_eq_false_iff, Bool.and_eq_false_iff, decide_eq_false_iff_not, and_true]
  omega

/-- Texts with the same words collapse alike. -/
theorem collapse_congr {text other : String} (h : words text.toList = words other.toList) :
    collapse text = collapse other := by
  rw [collapse, collapse, collapseChars, collapseChars, h]

end Text

theorem Category.isTidy_name (category : Category) : Text.IsTidy category.name.toList := by
  refine Text.IsWord.isTidy ⟨category.name_spec.1, ?_⟩
  intro c hc
  exact Text.isBlank_of_isAlpha (category.name_spec.2 c hc)

/-! ## What a label says of a field -/

namespace Label

/-- What a detailed label says of a field that may be absent. -/
def said : Option FieldValue → String
  | none => ""
  | some (.text content) => Text.collapse content
  | some (.list items) => ", ".intercalate (items.map Text.collapse)
  | some (.flag value) => if value then "true" else "false"

theorem line_eq (node : Tree.Node) (title : String) (field : Field) :
    line node title field = title ++ ": " ++ said (node.field? field) := by
  unfold line
  cases node.field? field with
  | none => rfl
  | some value =>
    cases value with
    | text content => rfl
    | list items => rfl
    | flag value => cases value <;> rfl

/-- What a label says of a field is tidy. -/
theorem isTidy_said (value : Option FieldValue) : Text.IsTidy (said value).toList := by
  rcases value with _ | content | items | flag
  · decide
  · exact Text.isTidy_collapse content
  · rw [said, String.toList_intercalate]
    refine Text.IsTidy.intercalate (by decide) ?_
    simp only [List.map_map, List.forall_mem_map, Function.comp_apply]
    intro item _
    exact Text.isTidy_collapse item
  · cases flag <;> decide

theorem isLine_said (value : Option FieldValue) : Text.IsLine (said value) := by
  rcases value with _ | content | items | flag
  · decide
  · exact Text.isLine_collapse content
  · refine Text.isLine_intercalate (by decide) ?_
    rw [List.forall_mem_map]
    intro item _
    exact Text.isLine_collapse item
  · cases flag <;> decide

theorem title_spec {category : Category} {row : String × Field} (h : row ∈ lines category) :
    Text.IsTidy row.1.toList ∧ Text.IsLine row.1 := by
  have hall : (Category.all.all fun each => (lines each).all fun row =>
      decide (Text.IsTidy row.1.toList) && decide (Text.IsLine row.1)) = true := by
    decide +kernel
  have hrows := List.all_eq_true.mp hall category category.mem_all
  have hrow := List.all_eq_true.mp hrows row h
  rw [Bool.and_eq_true, decide_eq_true_iff, decide_eq_true_iff] at hrow
  exact hrow

/-- A row of a detailed label is tidy. -/
theorem isTidy_line (node : Tree.Node) {row : String × Field} (h : row ∈ lines node.category) :
    Text.IsTidy (line node row.1 row.2).toList := by
  rw [line_eq, String.toList_append, String.toList_append]
  exact ((title_spec h).1.append (by decide)).append (isTidy_said _)

theorem isLine_line (node : Tree.Node) {row : String × Field} (h : row ∈ lines node.category) :
    Text.IsLine (line node row.1 row.2) := by
  rw [line_eq]
  exact ((title_spec h).2.append (by decide)).append (isLine_said _)

/-- A detailed label is tidy. -/
theorem isTidy_detailed (node : Tree.Node) : Text.IsTidy (detailed node).toList := by
  rw [detailed, String.toList_intercalate]
  refine Text.IsTidy.intercalate (by decide) ?_
  rw [List.map_cons, List.map_map, List.forall_mem_cons, List.forall_mem_map]
  exact ⟨node.category.isTidy_name, fun row hrow => isTidy_line node hrow⟩

/-- The lines between the newlines are those that were written. -/
theorem splitOn_detailed (node : Tree.Node) :
    (detailed node).toList.splitOn '\n' = node.category.name.toList ::
      (lines node.category).map fun row => (line node row.1 row.2).toList := by
  rw [detailed, String.toList_intercalate, List.map_cons, List.map_map]
  apply List.splitOn_intercalate
  · rw [List.forall_mem_cons, List.forall_mem_map]
    exact ⟨node.category.isLine_name, fun row hrow => isLine_line node hrow⟩
  · exact List.cons_ne_nil _ _

end Label

/-! ## Texts with the same words -/

/-- Values of one form whose texts have the same words, one by one. -/
def FieldValue.SameWords : FieldValue → FieldValue → Prop
  | .text content, .text other => Text.words content.toList = Text.words other.toList
  | .list items, .list others =>
    List.Forall₂ (fun item other => Text.words item.toList = Text.words other.toList) items others
  | .flag value, .flag other => value = other
  | _, _ => False

instance : ∀ value other, Decidable (FieldValue.SameWords value other)
  | .text _, .text _ => inferInstanceAs (Decidable (_ = _))
  | .list items, .list others => inferInstanceAs (Decidable (List.Forall₂ _ items others))
  | .flag _, .flag _ => inferInstanceAs (Decidable (_ = _))
  | .text _, .list _ | .text _, .flag _ | .list _, .text _ | .list _, .flag _ | .flag _, .text _
  | .flag _, .list _ => isFalse id

namespace Label

/-- A label says the same of two values with the same words. -/
theorem said_congr {value other : FieldValue} (h : value.SameWords other) :
    said (some value) = said (some other) := by
  cases value with
  | text content =>
    cases other with
    | text other => exact Text.collapse_congr h
    | list => exact h.elim
    | flag => exact h.elim
  | list items =>
    cases other with
    | text => exact h.elim
    | list others =>
      have hitems : items.map Text.collapse = others.map Text.collapse := by
        rw [← List.forall₂_eq_eq_eq, List.forall₂_map_left_iff, List.forall₂_map_right_iff]
        exact List.Forall₂.imp (fun _ _ hwords => Text.collapse_congr hwords) h
      rw [said, said, hitems]
    | flag => exact h.elim
  | flag value =>
    cases other with
    | text => exact h.elim
    | list => exact h.elim
    | flag other => rw [show value = other from h]

theorem said_lookup_congr {fields others : List (Field × FieldValue)}
    (h : List.Forall₂ (fun entry other => entry.1 = other.1 ∧ entry.2.SameWords other.2)
      fields others) (field : Field) :
    said (fields.lookup field) = said (others.lookup field) := by
  induction h with
  | nil => rfl
  | @cons entry other fields others hentry hrest ih =>
    rw [List.lookup_cons, List.lookup_cons, hentry.1]
    split
    · exact said_congr hentry.2
    · exact ih

/-- **A detailed label has a line for each field that it shows**, after a line with the
name of the category, whatever the fields hold.  Its blanks are the newlines between
these lines and single spaces.  Replacing the texts of the fields by others with the same
words does not change it. -/
theorem detailed_label_lines (node : Tree.Node) :
    let label := (text true node).toList
    let rows := lines node.category
    label.splitOn '\n' = node.category.name.toList ::
        rows.map (fun row => (row.1 ++ ": " ++ said (node.field? row.2)).toList) ∧
      (label.splitOn '\n').length = 1 + rows.length ∧
      (∀ c ∈ label, Text.isBlank c = true → c = ' ' ∨ c = '\n') ∧
      ¬ [' ', ' '] <:+: label ∧
      ∀ other : Tree.Node, other.category = node.category →
        List.Forall₂ (fun entry changed => entry.1 = changed.1 ∧ entry.2.SameWords changed.2)
          node.fields other.fields →
        text true other = text true node := by
  intro label rows
  have hlines : label.splitOn '\n' = node.category.name.toList ::
      rows.map (fun row => (row.1 ++ ": " ++ said (node.field? row.2)).toList) := by
    simp only [← line_eq]
    exact splitOn_detailed node
  have htidy : Text.IsTidy label := isTidy_detailed node
  refine ⟨hlines, ?_, htidy.blank_eq, htidy.not_infix, ?_⟩
  · rw [hlines, List.length_cons, List.length_map, Nat.add_comm]
  · intro other hcategory hfields
    have hsaid (field : Field) : said (other.field? field) = said (node.field? field) :=
      (said_lookup_congr hfields field).symm
    show detailed other = detailed node
    simp only [detailed, line_eq, hcategory, hsaid]

/-- A method with breaks in its texts and no return type. -/
def brokenMethod : Tree.Node where
  category := .methodDeclaration
  parent := none
  fields := [(.name, .text "\n get\t\tName\u2028"), (.parameters, .list ["int\r\n x", "y "])]

/-- The words of that method, on one line each. -/
def mendedMethod : Tree.Node :=
  { brokenMethod with
    fields := [(.name, .text "get Name"), (.parameters, .list ["int x", "y"])] }

theorem detailed_label_lines_brokenMethod :
    (text true brokenMethod).toList.splitOn '\n' =
        ["MethodDeclaration".toList, "Name: get Name".toList, "Parameters: int x, y".toList,
          "Return Type: ".toList] ∧
      ('\n' ∈ (text true brokenMethod).toList ∧ Text.isBlank '\n' = true ∧
        ('\n' = ' ' ∨ '\n' = '\n')) ∧
      ¬ [' ', ' '] <:+: (text true brokenMethod).toList ∧
      text true mendedMethod = text true brokenMethod := by
  obtain ⟨hlines, -, hblank, hspaces, hother⟩ := detailed_label_lines brokenMethod
  have hnewline : '\n' ∈ (text true brokenMethod).toList := by decide +kernel
  refine ⟨hlines.trans ?_, ⟨hnewline, by decide, hblank _ hnewline (by decide)⟩, hspaces, ?_⟩
  · decide +kernel
  · exact hother mendedMethod rfl (by decide +kernel)

end Label

end SyntaxForest
