import SyntaxForest.Java.Rows
import SyntaxForest.Java.Source
import SyntaxForest.Proofs.ParseComments

/-! The errors of a parse tree, and the choice between two parses of a text.  Counting
leaves out what is below a node that is marked free of errors.  Where every error is
marked on all nodes above it, nothing is missed, and so a source is never drawn from
the worse of its two parses. -/

namespace SyntaxForest.Java

namespace ParseTree

/-- All nodes of a tree, the root first. -/
def nodes (tree : ParseTree) : List ParseTree :=
  tree :: tree.descendants

/-- How many nodes of a tree are error or missing nodes. -/
def flaws (tree : ParseTree) : Nat :=
  tree.nodes.countP isFlawed

/-- Every node that has an error or missing node below it is marked.  Such a node itself
need not be: text that was skipped may hang in the tree as an unmarked leaf. -/
def MarksErrors (tree : ParseTree) : Prop :=
  ∀ node ∈ tree.nodes, ∀ below ∈ node.descendants,
    below.isFlawed = true → node.head.hasError = true

instance (tree : ParseTree) : Decidable tree.MarksErrors :=
  inferInstanceAs (Decidable (∀ node ∈ tree.nodes, ∀ below ∈ node.descendants,
    below.isFlawed = true → node.head.hasError = true))

theorem descendantsAll_append (trees more : List ParseTree) :
    descendantsAll (trees ++ more) = descendantsAll trees ++ descendantsAll more := by
  induction trees with
  | nil => rfl
  | cons tree trees ih =>
    simp only [List.cons_append, descendantsAll, ih, List.append_assoc]

variable {tree : ParseTree}

theorem MarksErrors.of_mem_suspects (h : tree.MarksErrors) {child : ParseTree}
    (hchild : child ∈ tree.suspects) : child.MarksErrors := by
  intro node hnode
  have hbelow := mem_descendants_iff.mpr ⟨child, tree.suspects_sublist.subset hchild, hnode⟩
  exact h node (List.mem_cons_of_mem _ hbelow)

/-- What is counted below a node is what is there: a node without a mark has no errors
below it to be missed. -/
theorem MarksErrors.countP_descendants (h : tree.MarksErrors) :
    tree.descendants.countP isFlawed = (descendantsAll tree.suspects).countP isFlawed := by
  obtain ⟨head, children⟩ := tree
  rw [descendants, suspects]
  by_cases hmarked : head.hasError = true
  · rw [if_pos hmarked]
  · rw [if_neg hmarked, descendantsAll, List.countP_nil, List.countP_eq_zero]
    intro below hbelow hflawed
    exact hmarked (h _ List.mem_cons_self below hbelow hflawed)

/-- The loop counts all errors of the pending trees. -/
theorem errorCountFrom_eq (count : Nat) (pending : List ParseTree)
    (h : ∀ tree ∈ pending, tree.MarksErrors) :
    errorCountFrom count pending = count + (descendantsAll pending).countP isFlawed := by
  induction count, pending using errorCountFrom.induct with
  | case1 count =>
    rw [errorCountFrom]
    rfl
  | case2 count tree pending ih =>
    have htree := h tree List.mem_cons_self
    have hnext : ∀ each ∈ tree.suspects ++ pending, each.MarksErrors := by
      intro each heach
      rcases List.mem_append.mp heach with hsuspect | hlater
      · exact htree.of_mem_suspects hsuspect
      · exact h each (List.mem_cons_of_mem _ hlater)
    -- the suspects take the place of the tree, and what is left out has no errors
    rw [errorCountFrom, ih hnext, descendantsAll_append, descendantsAll, List.countP_append,
      List.countP_cons, List.countP_append, htree.countP_descendants]
    cases tree.isFlawed with
    | true => simp; omega
    | false => simp

theorem errorCount_eq_flaws (h : tree.MarksErrors) : tree.errorCount = tree.flaws := by
  have hloop := errorCountFrom_eq 0 [tree] fun each heach => List.mem_singleton.mp heach ▸ h
  rw [errorCount, hloop, descendantsAll, descendantsAll, List.append_nil, Nat.zero_add]
  rfl

theorem flaws_ne_zero_iff : tree.flaws ≠ 0 ↔ ∃ node ∈ tree.nodes, node.isFlawed = true := by
  rw [← Nat.pos_iff_ne_zero, flaws, List.countP_pos_iff]

end ParseTree

theorem looksLikeUnit_eq_false_iff {tree : ParseTree} :
    looksLikeUnit tree = false ↔
      ∀ child ∈ tree.children, child.isNamed = true → child.kind ∉ unitMarkers := by
  simp [looksLikeUnit, ParseTree.namedChildren]

theorem hasTopLevelMethod_iff {tree : ParseTree} :
    hasTopLevelMethod tree = true ↔
      ∃ child ∈ tree.children, child.isNamed = true ∧ child.kind = "method_declaration" := by
  simp [hasTopLevelMethod, ParseTree.namedChildren]

namespace Source
variable {parse : Parser} {text : String}

/-- A text is drawn from one of its two parses. -/
theorem ofText_eq (parse : Parser) (text : String) :
    ofText parse text =
      if (ofText parse text).isWrapped then ⟨wrap text, parse (wrap text), true⟩
      else ⟨text, parse text, false⟩ := by
  rw [ofText]
  dsimp only
  split
  · rfl
  · split <;> rfl

theorem tree_ofText (parse : Parser) (text : String) :
    (ofText parse text).tree =
      if (ofText parse text).isWrapped then parse (wrap text) else parse text := by
  rw [ofText_eq]
  split <;> rfl

/-- The second parse is chosen for what is no unit, calls for it, and gets no worse. -/
theorem isWrapped_ofText_iff :
    (ofText parse text).isWrapped = true ↔
      looksLikeUnit (parse text) = false ∧
      ((parse text).errorCount ≠ 0 ∨ hasTopLevelMethod (parse text) = true) ∧
      (parse (wrap text)).errorCount ≤ (parse text).errorCount := by
  rw [ofText]
  cases looksLikeUnit (parse text) with
  | true => simp
  | false =>
    cases hasTopLevelMethod (parse text) with
    | true => simp [apply_ite]
    | false =>
      by_cases herrors : (parse text).errorCount = 0
      · simp [herrors]
      · simp [herrors, apply_ite]

/-- **A source is never drawn from the worse of its two parses.**  Where errors are
marked on the nodes above them, counting misses none.  Any text in UTF-8 has a source.
It is wrapped exactly when nothing at the top marks a unit, the text by itself has
errors or a method at the top, and the wrapped text has no more errors.  So the tree
that is drawn has no more errors than the text by itself. -/
theorem ofBytes_never_worse {bytes : ByteArray} (hbytes : String.fromUTF8? bytes = some text)
    (hdirect : (parse text).MarksErrors) (hwrapped : (parse (wrap text)).MarksErrors) :
    (parse text).errorCount = (parse text).flaws ∧
    (parse (wrap text)).errorCount = (parse (wrap text)).flaws ∧
    ∃ source, ofBytes parse bytes = .ok source ∧
      source.tree = (if source.isWrapped then parse (wrap text) else parse text) ∧
      (source.isWrapped = true ↔
        (∀ child ∈ (parse text).children, child.isNamed = true → child.kind ∉ unitMarkers) ∧
        ((∃ node ∈ (parse text).nodes, node.isFlawed = true) ∨
          ∃ child ∈ (parse text).children,
            child.isNamed = true ∧ child.kind = "method_declaration") ∧
        (parse (wrap text)).flaws ≤ (parse text).flaws) ∧
      source.tree.flaws ≤ (parse text).flaws := by
  have hcount := ParseTree.errorCount_eq_flaws hdirect
  have hcount' := ParseTree.errorCount_eq_flaws hwrapped
  have hchoice : (ofText parse text).isWrapped = true ↔ _ := isWrapped_ofText_iff
  rw [hcount, hcount', looksLikeUnit_eq_false_iff, ParseTree.flaws_ne_zero_iff,
    hasTopLevelMethod_iff] at hchoice
  refine ⟨hcount, hcount', ofText parse text, ?_, tree_ofText parse text, hchoice, ?_⟩
  · rw [ofBytes, hbytes]
  · rw [tree_ofText]
    split
    · rename_i hchosen
      exact (hchoice.mp hchosen).2.2
    · exact Nat.le_refl _

/-- A character that no Java text may hold outside of its strings. -/
def strayText : String := "😀"

/-- The error around `strayText` behind so many bytes and rows.  It holds the character
that was skipped, an unmarked leaf. -/
def strayError (bytes row : Nat) : ParseTree :=
  .node (.ofFlags "ERROR" 11 none bytes (bytes + 4) row row)
    [.node (.ofFlags "ERROR" 3 none bytes (bytes + 4) row row) []]

/-- A parser that knows `strayText`, wrapped and not. -/
def strayParser : Parser := fun text =>
  if text = wrap strayText then
    .node (.ofFlags "program" 9 none 0 33 0 3)
      [.node (.ofFlags "class_declaration" 9 none 0 32 0 2)
        [.node (.ofFlags "class" 0 none 0 5 0 0) [],
         .node (.ofFlags "identifier" 1 (some "name") 6 23 0 0) [],
         .node (.ofFlags "class_body" 9 (some "body") 24 32 0 2)
          [.node (.ofFlags "\x7b" 0 none 24 25 0 0) [], strayError 26 1,
           .node (.ofFlags "\x7d" 0 none 31 32 2 2) []]]]
  else .node (.ofFlags "program" 9 none 0 4 0 0) [strayError 0 0]

theorem ofBytes_never_worse_stray :
    String.fromUTF8? strayText.toUTF8 = some strayText ∧
    (strayParser strayText).MarksErrors ∧ (strayParser (wrap strayText)).MarksErrors ∧
    (strayParser strayText).errorCount = 2 ∧ (strayParser (wrap strayText)).errorCount = 2 ∧
    ∃ source, ofBytes strayParser strayText.toUTF8 = .ok source ∧ source.isWrapped = true ∧
      source.tree.flaws ≤ 2 := by
  have hbytes : String.fromUTF8? strayText.toUTF8 = some strayText := by decide +kernel
  have hdirect : (strayParser strayText).MarksErrors := by decide +kernel
  have hwrapped : (strayParser (wrap strayText)).MarksErrors := by decide +kernel
  have hflaws : (strayParser strayText).flaws = 2 := by decide +kernel
  have hflaws' : (strayParser (wrap strayText)).flaws = 2 := by decide +kernel
  obtain ⟨hcount, hcount', source, hsource, _, hchoice, hbetter⟩ :=
    ofBytes_never_worse hbytes hdirect hwrapped
  rw [hflaws] at hcount hbetter
  rw [hflaws'] at hcount'
  refine ⟨hbytes, hdirect, hwrapped, hcount, hcount', source, hsource, hchoice.mpr ?_, hbetter⟩
  rw [hflaws, hflaws']
  decide +kernel

end Source

end SyntaxForest.Java
