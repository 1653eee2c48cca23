import SyntaxForest.Proofs.LabelLines

/-! Collapsed texts as a normal form.  Texts are taken to say the same when they have the
same words, and the words of a text are what is left of it when it is cut at every
blank.  Each such class of texts has one collapsed member: its blanks are single
spaces, and they stand between words only. -/

namespace SyntaxForest.Text

/-- The parts of a text between blanks, the empty ones left out. -/
def parts (text : String) : List (List Char) :=
  (text.toList.splitOnP isBlank).filter fun part => !part.isEmpty

/-- A text whose blanks are single spaces between other characters. -/
structure IsSingleSpaced (text : List Char) : Prop where
  blank_eq : ∀ c ∈ text, isBlank c = true → c = ' '
  head_not_blank : ∀ c ∈ text.head?, isBlank c = false
  last_not_blank : ∀ c ∈ text.getLast?, isBlank c = false
  spaces_apart : ¬ [' ', ' '] <:+: text

/-! ## Words as parts between blanks -/

theorem exists_splitOnP_cons {c : Char} (hc : ¬ isBlank c = true) (rest : List Char) :
    ∃ part more, (c :: rest).splitOnP isBlank = (c :: part) :: more := by
  obtain ⟨part, more, hrest⟩ := List.exists_cons_of_ne_nil (List.splitOnP_ne_nil isBlank rest)
  refine ⟨part, more, ?_⟩
  rw [List.splitOnP_cons_eq_if_modifyHead, if_neg hc, hrest]
  rfl

/-- Words are the parts of a text between blanks. -/
theorem words_eq_filter_splitOnP (text : List Char) :
    words text = (text.splitOnP isBlank).filter fun part => !part.isEmpty := by
  induction text with
  | nil => rfl
  | cons c rest ih =>
    rw [List.splitOnP_cons_eq_if_modifyHead]
    by_cases hc : isBlank c = true
    · rw [words_cons_of_isBlank hc, if_pos hc, ih]
      rfl
    rw [if_neg hc]
    cases rest with
    | nil =>
      rw [words_cons_of_ends hc (by simp), List.splitOnP_nil]
      rfl
    | cons d tail =>
      by_cases hd : isBlank d = true
      · -- the cut after the character leaves an empty part in front of the rest
        rw [words_cons_of_ends hc (by simpa using hd), ih, List.splitOnP_cons_eq_if_modifyHead,
          if_pos hd]
        rfl
      · obtain ⟨part, more, hsplit⟩ := exists_splitOnP_cons hd tail
        rw [hsplit] at ih ⊢
        exact words_cons_of_goes_on hc hd ih

/-- The parts of a text between its blanks are its words. -/
theorem parts_eq_words (text : String) : parts text = words text.toList :=
  (words_eq_filter_splitOnP text.toList).symm

/-! ## Words of joined texts -/

theorem words_blank_append {gap : List Char} (hgap : ∀ c ∈ gap, isBlank c = true)
    (rest : List Char) : words (gap ++ rest) = words rest := by
  induction gap with
  | nil => rfl
  | cons c gap ih =>
    rw [List.cons_append, words_cons_of_isBlank (hgap c List.mem_cons_self)]
    exact ih fun d hd => hgap d (List.mem_cons_of_mem _ hd)

/-- A gap of blanks divides the words of a text. -/
theorem words_append_gap {front gap back : List Char} (hne : gap ≠ [])
    (hgap : ∀ c ∈ gap, isBlank c = true) :
    words (front ++ gap ++ back) = words front ++ words back := by
  obtain ⟨c, gap, rfl⟩ := List.exists_cons_of_ne_nil hne
  have hrest : words (gap ++ back) = words back :=
    words_blank_append (fun d hd => hgap d (List.mem_cons_of_mem _ hd)) back
  rw [List.append_assoc, List.cons_append, words_eq_filter_splitOnP,
    List.splitOnP_append_cons _ _ (hgap c List.mem_cons_self), List.filter_append,
    ← words_eq_filter_splitOnP, ← words_eq_filter_splitOnP, hrest]

theorem collapse_eq_intercalate (text : String) :
    collapse text = " ".intercalate ((words text.toList).map String.ofList) := by
  apply String.toList_inj.mp
  rw [String.toList_intercalate, List.map_map, collapse, String.toList_ofList, collapseChars]
  simp [Function.comp_def]

/-- Collapsing keeps the words of a text. -/
theorem words_collapse (text : String) : words (collapse text).toList = words text.toList := by
  rw [collapse, String.toList_ofList, words_collapseChars]

/-- Two texts collapse to the same one exactly when their words are the same. -/
theorem collapse_eq_collapse_iff {text other : String} :
    collapse text = collapse other ↔ words text.toList = words other.toList := by
  constructor
  · intro h
    rw [← words_collapse text, ← words_collapse other, h]
  · exact collapse_congr

/-- A text collapses to nothing exactly when it has no words. -/
theorem collapse_eq_empty_iff {text : String} : collapse text = "" ↔ words text.toList = [] := by
  constructor
  · intro h
    rw [← words_collapse, h]
    rfl
  · intro h
    rw [collapse, collapseChars, h]
    rfl

/-! ## Where the blanks of a collapsed text stand -/

theorem intercalate_ne_nil {word : List Char} {list : List (List Char)}
    (h : ∀ each ∈ word :: list, IsWord each) : [' '].intercalate (word :: list) ≠ [] := by
  intro hnil
  have hwords := words_intercalate h
  rw [hnil] at hwords
  cases hwords

theorem head_intercalate_not_blank {list : List (List Char)} (h : ∀ word ∈ list, IsWord word)
    {c : Char} (hc : c ∈ ([' '].intercalate list).head?) : isBlank c = false := by
  cases list with
  | nil => cases hc
  | cons word list =>
    have hword := h word List.mem_cons_self
    refine hword.not_blank c (List.mem_of_head? ?_)
    cases list with
    | nil => rwa [List.intercalate_singleton] at hc
    | cons next list =>
      rwa [List.intercalate_cons_cons, List.append_assoc,
        List.head?_append_of_ne_nil _ hword.ne_nil] at hc

theorem last_intercalate_not_blank {list : List (List Char)} (h : ∀ word ∈ list, IsWord word)
    {c : Char} (hc : c ∈ ([' '].intercalate list).getLast?) : isBlank c = false := by
  induction list with
  | nil => cases hc
  | cons word list ih =>
    have hrest := fun each heach => h each (List.mem_cons_of_mem word heach)
    cases list with
    | nil =>
      rw [List.intercalate_singleton] at hc
      exact (h word List.mem_cons_self).not_blank c (List.mem_of_getLast? hc)
    | cons next list =>
      rw [List.intercalate_cons_cons,
        List.getLast?_append_of_ne_nil _ (intercalate_ne_nil hrest)] at hc
      exact ih hrest hc

/-- A collapsed text has single spaces between its words and none around them. -/
theorem isSingleSpaced_collapse (text : String) : IsSingleSpaced (collapse text).toList where
  blank_eq := by
    intro c hc hblank
    rw [collapse, String.toList_ofList] at hc
    rcases eq_space_or_of_mem_collapseChars hc with hspace | hnot
    · exact hspace
    · exact absurd hblank (by simp [hnot])
  head_not_blank := by
    rw [collapse, String.toList_ofList]
    exact fun c => head_intercalate_not_blank fun _ hword => isWord_of_mem_words hword
  last_not_blank := by
    rw [collapse, String.toList_ofList]
    exact fun c => last_intercalate_not_blank fun _ hword => isWord_of_mem_words hword
  spaces_apart := IsTidy.not_infix (isTidy_collapse text)

/-- The collapsed forms of two texts give that of both with a gap between them. -/
theorem collapse_append_gap {text gap other : String} (hne : gap ≠ "")
    (hgap : ∀ c ∈ gap.toList, isBlank c = true) :
    collapse (text ++ gap ++ other) =
      if collapse text = "" then collapse other
      else if collapse other = "" then collapse text
      else collapse text ++ " " ++ collapse other := by
  have hnil : gap.toList ≠ [] := by
    intro hnil
    exact hne (String.toList_eq_nil_iff.mp hnil)
  have hwords : words (text ++ gap ++ other).toList = words text.toList ++ words other.toList := by
    rw [String.toList_append, String.toList_append, words_append_gap hnil hgap]
  by_cases htext : words text.toList = []
  · rw [if_pos (collapse_eq_empty_iff.mpr htext), collapse_eq_collapse_iff, hwords, htext]
    rfl
  rw [if_neg (mt collapse_eq_empty_iff.mp htext)]
  by_cases hother : words other.toList = []
  · rw [if_pos (collapse_eq_empty_iff.mpr hother), collapse_eq_collapse_iff, hwords, hother]
    exact List.append_nil _
  rw [if_neg (mt collapse_eq_empty_iff.mp hother), collapse_eq_intercalate, hwords,
    List.map_append, String.intercalate_append_of_ne_nil, ← collapse_eq_intercalate,
    ← collapse_eq_intercalate]
  · simpa using htext
  · simpa using hother

/-- **Collapsing gives a normal form** of texts with the same words.  A text keeps its
words, and its blanks become single spaces between them; a second time nothing
changes; two texts collapse alike just when their words are the same; and of two
texts with blanks between them the collapsed forms are joined by a space, unless
one of them is empty. -/
theorem collapse_is_normal_form (text other : String) :
    parts (collapse text) = parts text ∧
    IsSingleSpaced (collapse text).toList ∧
    collapse (collapse text) = collapse text ∧
    (collapse text = collapse other ↔ parts text = parts other) ∧
    ∀ gap : String, gap ≠ "" → (∀ c ∈ gap.toList, isBlank c = true) →
      collapse (text ++ gap ++ other) =
        if collapse text = "" then collapse other
        else if collapse other = "" then collapse text
        else collapse text ++ " " ++ collapse other := by
  simp only [parts_eq_words]
  refine ⟨words_collapse text, isSingleSpaced_collapse text, ?_, collapse_eq_collapse_iff, ?_⟩
  · exact collapse_eq_collapse_iff.mpr (words_collapse text)
  · intro gap hne hgap
    exact collapse_append_gap hne hgap

/-- A wide space and a break between texts with blanks of other kinds at their ends. -/
theorem collapse_is_normal_form_mixedBlanks :
    collapse ("\u00A0int\tx " ++ "\u3000\r\n" ++ "\u2003= 1;\n") = "int x = 1;" := by
  have hgap : "\u3000\r\n".toList.all isBlank = true := by decide
  have hjoin := (collapse_is_normal_form "\u00A0int\tx " "\u2003= 1;\n").2.2.2.2 "\u3000\r\n"
    (by decide) (List.all_eq_true.mp hgap)
  have hfront : collapse "\u00A0int\tx " = "int x" := by decide
  have hback : collapse "\u2003= 1;\n" = "= 1;" := by decide
  rw [hjoin, hfront, hback]
  decide

end SyntaxForest.Text
