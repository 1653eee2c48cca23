import SyntaxForest.Text.Blank

/-! The words of a text.  Words are runs of characters that are not blank.  Written with
one space between neighbours they are read back as they are, so a text that was
collapsed once stays as it is. -/

namespace SyntaxForest.Text

/-- A run of characters, none of them blank. -/
structure IsWord (word : List Char) : Prop where
  ne_nil : word ≠ []
  not_blank : ∀ c ∈ word, isBlank c = false

theorem IsWord.singleton {c : Char} (h : ¬ isBlank c = true) : IsWord [c] where
  ne_nil := List.cons_ne_nil _ _
  not_blank := by
    intro each heach
    rw [List.mem_singleton.mp heach]
    exact Bool.eq_false_iff.mpr h

theorem IsWord.cons {c : Char} {word : List Char} (hword : IsWord word) (h : ¬ isBlank c = true) :
    IsWord (c :: word) where
  ne_nil := List.cons_ne_nil _ _
  not_blank := by
    intro each heach
    rcases List.mem_cons.mp heach with rfl | hin
    · exact Bool.eq_false_iff.mpr h
    · exact hword.not_blank each hin

/-! ## Reading words off a text -/

/-- A blank before a text is in no word. -/
theorem words_cons_of_isBlank {c : Char} (h : isBlank c = true) (rest : List Char) :
    words (c :: rest) = words rest :=
  if_pos h

/-- A character before a blank, or at the end, is a word of its own. -/
theorem words_cons_of_ends {c : Char} {rest : List Char} (hc : ¬ isBlank c = true)
    (hrest : ∀ d ∈ rest.head?, isBlank d = true) : words (c :: rest) = [c] :: words rest := by
  refine (if_neg hc).trans ?_
  cases rest with
  | nil => rfl
  | cons d tail =>
    cases words (d :: tail) with
    | nil => rfl
    | cons next more => exact if_pos (hrest d rfl)

/-- A character before one that is no blank opens that one's word. -/
theorem words_cons_of_goes_on {c d : Char} {tail word : List Char} {more : List (List Char)}
    (hc : ¬ isBlank c = true) (hd : ¬ isBlank d = true) (h : words (d :: tail) = word :: more) :
    words (c :: d :: tail) = (c :: word) :: more := by
  refine (if_neg hc).trans ?_
  rw [h]
  exact if_neg hd

/-- A word ends where the text ends or a blank follows. -/
theorem words_append {word rest : List Char} (hword : IsWord word)
    (hrest : ∀ c ∈ rest.head?, isBlank c = true) : words (word ++ rest) = word :: words rest := by
  induction word with
  | nil => exact absurd rfl hword.ne_nil
  | cons c word ih =>
    have hblank {d : Char} (hd : d ∈ c :: word) : ¬ isBlank d = true := by
      simp [hword.not_blank d hd]
    cases word with
    | nil => exact words_cons_of_ends (hblank List.mem_cons_self) hrest
    | cons d tail =>
      have hnext : IsWord (d :: tail) :=
        ⟨List.cons_ne_nil _ _, fun each heach =>
          hword.not_blank each (List.mem_cons_of_mem _ heach)⟩
      exact words_cons_of_goes_on (hblank List.mem_cons_self) (hblank (by simp)) (ih hnext)

theorem exists_words_cons {c : Char} (hc : ¬ isBlank c = true) (rest : List Char) :
    ∃ word more, words (c :: rest) = word :: more := by
  induction rest generalizing c with
  | nil => exact ⟨_, _, words_cons_of_ends hc (by simp)⟩
  | cons d tail ih =>
    by_cases hd : isBlank d = true
    · exact ⟨_, _, words_cons_of_ends hc (by simpa using hd)⟩
    · obtain ⟨word, more, hwords⟩ := ih hd
      exact ⟨_, _, words_cons_of_goes_on hc hd hwords⟩

/-- The words of a text are words. -/
theorem isWord_of_mem_words {text word : List Char} (h : word ∈ words text) : IsWord word := by
  induction text generalizing word with
  | nil => cases h
  | cons c rest ih =>
    by_cases hc : isBlank c = true
    · rw [words_cons_of_isBlank hc] at h
      exact ih h
    by_cases hends : ∀ d ∈ rest.head?, isBlank d = true
    · rw [words_cons_of_ends hc hends] at h
      rcases List.mem_cons.mp h with rfl | hlater
      · exact .singleton hc
      · exact ih hlater
    · -- the character stands in front of the first word of the rest
      cases rest with
      | nil => exact absurd (by simp) hends
      | cons d tail =>
        have hd : ¬ isBlank d = true := by simpa using hends
        obtain ⟨next, more, hwords⟩ := exists_words_cons hd tail
        rw [words_cons_of_goes_on hc hd hwords] at h
        rw [hwords] at ih
        rcases List.mem_cons.mp h with rfl | hlater
        · exact (ih List.mem_cons_self).cons hc
        · exact ih (List.mem_cons_of_mem _ hlater)

/-! ## Words with single spaces -/

theorem isBlank_space : isBlank ' ' = true := by
  decide

/-- Words with one space between neighbours are read back. -/
theorem words_intercalate {list : List (List Char)} (h : ∀ word ∈ list, IsWord word) :
    words ([' '].intercalate list) = list := by
  induction list with
  | nil => rfl
  | cons word list ih =>
    have hword := h word List.mem_cons_self
    have hrest := ih fun each heach => h each (List.mem_cons_of_mem _ heach)
    cases list with
    | nil =>
      have hend : words (word ++ []) = word :: words [] := words_append hword (by simp)
      rw [List.append_nil] at hend
      rw [List.intercalate_singleton]
      exact hend
    | cons next list =>
      rw [List.intercalate_cons_cons, List.append_assoc, List.singleton_append,
        words_append hword (by simpa using isBlank_space), words_cons_of_isBlank isBlank_space,
        hrest]

/-- Collapsing keeps the words of a text. -/
theorem words_collapseChars (text : List Char) : words (collapseChars text) = words text :=
  words_intercalate fun _ hword => isWord_of_mem_words hword

/-- A text that is collapsed already stays as it is. -/
theorem collapseChars_collapseChars (text : List Char) :
    collapseChars (collapseChars text) = collapseChars text := by
  rw [collapseChars, words_collapseChars, collapseChars]

theorem mem_of_mem_intercalate {α : Type} {between : List α} {list : List (List α)} {x : α}
    (h : x ∈ between.intercalate list) : x ∈ between ∨ ∃ item ∈ list, x ∈ item := by
  induction list with
  | nil => cases h
  | cons item list ih =>
    cases list with
    | nil =>
      rw [List.intercalate_singleton] at h
      exact .inr ⟨item, List.mem_cons_self, h⟩
    | cons next list =>
      rw [List.intercalate_cons_cons, List.mem_append, List.mem_append] at h
      rcases h with (hitem | hbetween) | hlater
      · exact .inr ⟨item, List.mem_cons_self, hitem⟩
      · exact .inl hbetween
      · refine (ih hlater).imp_right ?_
        rintro ⟨each, heach, hx⟩
        exact ⟨each, List.mem_cons_of_mem _ heach, hx⟩

/-- The only blank characters of a collapsed text are its spaces. -/
theorem eq_space_or_of_mem_collapseChars {text : List Char} {c : Char}
    (h : c ∈ collapseChars text) : c = ' ' ∨ isBlank c = false := by
  rcases mem_of_mem_intercalate h with hspace | ⟨word, hword, hc⟩
  · exact .inl (List.mem_singleton.mp hspace)
  · exact .inr ((isWord_of_mem_words hword).not_blank c hc)

/-- A text that collapsing leaves as it is. -/
def IsCollapsed (text : String) : Prop :=
  collapse text = text

/-- Collapsing once is enough: a collapsed text stays as it is. -/
theorem isCollapsed_ofList (text : List Char) :
    IsCollapsed (String.ofList (collapseChars text)) := by
  rw [IsCollapsed, collapse, String.toList_ofList, collapseChars_collapseChars]

/-- Texts that collapsing leaves as they are. -/
def AllCollapsed (texts : List String) : Prop :=
  ∀ text ∈ texts, IsCollapsed text

theorem allCollapsed_nil : AllCollapsed [] :=
  List.forall_mem_nil _

theorem allCollapsed_singleton {text : String} : AllCollapsed [text] ↔ IsCollapsed text :=
  List.forall_mem_singleton

end SyntaxForest.Text
