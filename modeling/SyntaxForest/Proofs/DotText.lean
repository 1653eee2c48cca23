import Mathlib.Data.List.Basic
import SyntaxForest.Dot

/-! The text of a graph tells its statements.  Names are made of letters and digits,
so what follows a name shows that it has ended; a quoted value ends at the first
quote that no backslash escapes; and what stands after a name or a value tells
how the statement goes on.  No value breaks out of its quotes or its line, and
two graphs with one text have the same statements. -/

namespace SyntaxForest

/-! ## Texts that tell where they end -/

/-- A run of items that have a property ends at the first that has not. -/
theorem run_append_inj {α : Type} {p : α → Bool} {run other rest rest' : List α}
    (hrun : ∀ a ∈ run, p a = true) (hother : ∀ a ∈ other, p a = true)
    (hrest : ∀ a ∈ rest.head?, p a = false) (hrest' : ∀ a ∈ rest'.head?, p a = false)
    (h : run ++ rest = other ++ rest') : run = other ∧ rest = rest' := by
  have hstop {tail : List α} (htail : ∀ a ∈ tail.head?, p a = false) : tail.takeWhile p = [] := by
    cases tail with
    | nil => rfl
    | cons a tail =>
      rw [List.takeWhile_cons, htail a rfl]
      rfl
  have htake := congrArg (List.takeWhile p) h
  rw [List.takeWhile_append_of_pos hrun, List.takeWhile_append_of_pos hother, hstop hrest,
    hstop hrest', List.append_nil, List.append_nil] at htake
  subst htake
  exact ⟨rfl, List.append_cancel_left h⟩

/-- A list is told by the texts of its items, up to a mark with which no item begins,
where the text of an item tells the item and where it ends. -/
theorem flatMap_append_inj {α β : Type} {write : α → List β} (Good : α → Prop) {mark : β}
    (hitem : ∀ {a b rest rest'}, Good a → Good b → write a ++ rest = write b ++ rest' →
      a = b ∧ rest = rest')
    (hmark : ∀ {a rest rest'}, Good a → write a ++ rest ≠ mark :: rest')
    {items others : List α} (hitems : ∀ a ∈ items, Good a) (hothers : ∀ a ∈ others, Good a)
    {rest rest' : List β}
    (h : items.flatMap write ++ mark :: rest = others.flatMap write ++ mark :: rest') :
    items = others ∧ rest = rest' := by
  -- both lists are taken apart together: where one ends at the mark, so does the other
  induction items generalizing others with
  | nil =>
    cases others with
    | nil => exact ⟨rfl, (List.cons.inj h).2⟩
    | cons b others =>
      rw [List.flatMap_cons, List.append_assoc] at h
      exact absurd h.symm (hmark (hothers b List.mem_cons_self))
  | cons a items ih =>
    cases others with
    | nil =>
      rw [List.flatMap_cons, List.append_assoc] at h
      exact absurd h (hmark (hitems a List.mem_cons_self))
    | cons b others =>
      rw [List.flatMap_cons, List.flatMap_cons, List.append_assoc, List.append_assoc] at h
      obtain ⟨rfl, htail⟩ := hitem (hitems a List.mem_cons_self) (hothers b List.mem_cons_self) h
      obtain ⟨rfl, hrest⟩ := ih (fun c hc => hitems c (List.mem_cons_of_mem _ hc))
        (fun c hc => hothers c (List.mem_cons_of_mem _ hc)) htail
      exact ⟨rfl, hrest⟩

namespace Dot

/-! ## Quoted values -/

/-- The characters that stand for one character inside quotes. -/
def escapeChar : Char → List Char
  | '\\' => ['\\', '\\']
  | '"' => ['\\', '"']
  | '\n' => ['\\', 'n']
  | c => [c]

/-- Backslash, quote and newline are escaped, and all other characters stand for
themselves. -/
theorem escapeChar_cases (c : Char) :
    (c = '\\' ∧ escapeChar c = ['\\', '\\']) ∨ (c = '"' ∧ escapeChar c = ['\\', '"']) ∨
      (c = '\n' ∧ escapeChar c = ['\\', 'n']) ∨
      (c ≠ '\\' ∧ c ≠ '"' ∧ c ≠ '\n' ∧ escapeChar c = [c]) := by
  unfold escapeChar
  split <;> simp_all

/-- The replacements one after the other come to a single pass: none of them finds what
an earlier one has put there. -/
theorem toList_escape (text : String) : (escape text).toList = text.toList.flatMap escapeChar := by
  simp only [escape, replaceAll, String.toList_ofList, List.flatMap_assoc]
  refine List.flatMap_congr fun c _ => ?_
  rcases escapeChar_cases c with ⟨rfl, hw⟩ | ⟨rfl, hw⟩ | ⟨rfl, hw⟩ | ⟨hback, hquote, hline, hw⟩
  · rw [hw]
    decide
  · rw [hw]
    decide
  · rw [hw]
    decide
  · rw [hw]
    simp [hback, hquote, hline]

/-- A character inside quotes is told by what stands for it. -/
theorem escapeChar_append_inj {c d : Char} {rest rest' : List Char}
    (h : escapeChar c ++ rest = escapeChar d ++ rest') : c = d ∧ rest = rest' := by
  rcases escapeChar_cases c with ⟨hc, hw⟩ | ⟨hc, hw⟩ | ⟨hc, hw⟩ | ⟨hc, _, _, hw⟩ <;>
    rcases escapeChar_cases d with ⟨hd, hw'⟩ | ⟨hd, hw'⟩ | ⟨hd, hw'⟩ | ⟨hd, _, _, hw'⟩ <;>
    rw [hw, hw'] at h <;>
    simp only [List.cons_append, List.nil_append, List.cons.injEq] at h <;>
    grind

theorem escapeChar_append_ne_quote {c : Char} {rest rest' : List Char} :
    escapeChar c ++ rest ≠ '"' :: rest' := by
  rcases escapeChar_cases c with ⟨_, hw⟩ | ⟨_, hw⟩ | ⟨_, hw⟩ | ⟨_, hc, _, hw⟩ <;> simp_all

/-- A value ends at the first quote that is not escaped. -/
theorem escape_append_inj {text other rest rest' : List Char}
    (h : text.flatMap escapeChar ++ '"' :: rest = other.flatMap escapeChar ++ '"' :: rest') :
    text = other ∧ rest = rest' :=
  flatMap_append_inj (fun _ => True) (fun _ _ => escapeChar_append_inj)
    (fun _ => escapeChar_append_ne_quote) (fun _ _ => trivial) (fun _ _ => trivial) h

/-- No newline is left inside quotes. -/
theorem newline_notMem_escape (text : List Char) : '\n' ∉ text.flatMap escapeChar := by
  intro h
  obtain ⟨c, _, hc⟩ := List.mem_flatMap.mp h
  rcases escapeChar_cases c with ⟨_, hw⟩ | ⟨_, hw⟩ | ⟨_, hw⟩ | ⟨_, _, hline, hw⟩ <;>
    rw [hw] at hc <;> simp_all [eq_comm]

/-! ## Names, pairs and attributes -/

/-- A name: letters and digits only. -/
def IsName (name : String) : Prop :=
  ∀ c ∈ name.toList, c.isAlphanum = true

theorem IsName.of_all {name : String} (h : name.toList.all Char.isAlphanum = true) : IsName name :=
  List.all_eq_true.mp h

theorem name_append_inj {name other : String} {rest rest' : List Char} (hname : IsName name)
    (hother : IsName other) (hrest : ∀ c ∈ rest.head?, c.isAlphanum = false)
    (hrest' : ∀ c ∈ rest'.head?, c.isAlphanum = false)
    (h : name.toList ++ rest = other.toList ++ rest') : name = other ∧ rest = rest' := by
  obtain ⟨hsame, htail⟩ := run_append_inj hname hother hrest hrest' h
  exact ⟨String.toList_inj.mp hsame, htail⟩

theorem newline_notMem_name {name : String} (hname : IsName name) : '\n' ∉ name.toList := by
  intro h
  have hline := hname _ h
  simp at hline

/-- A key with its quoted value, as characters. -/
def pairChars (each : String × String) : List Char :=
  each.1.toList ++ '=' :: '"' :: (each.2.toList.flatMap escapeChar ++ ['"'])

theorem toList_pair (key value : String) : (pair key value).toList = pairChars (key, value) := by
  simp [pair, toList_escape, pairChars, String.toList_append]

theorem pairChars_append_inj {each other : String × String} {rest rest' : List Char}
    (hkey : IsName each.1) (hkey' : IsName other.1)
    (h : pairChars each ++ rest = pairChars other ++ rest') : each = other ∧ rest = rest' := by
  simp only [pairChars, List.append_assoc, List.cons_append, List.nil_append] at h
  obtain ⟨hname, htail⟩ := name_append_inj hkey hkey' (by simp) (by simp) h
  obtain ⟨hvalue, hrest⟩ := escape_append_inj (List.cons.inj (List.cons.inj htail).2).2
  exact ⟨Prod.ext hname (String.toList_inj.mp hvalue), hrest⟩

theorem newline_notMem_pairChars {each : String × String} (hkey : IsName each.1) :
    '\n' ∉ pairChars each := by
  simp [pairChars, newline_notMem_name hkey, -List.mem_flatMap, newline_notMem_escape]

/-- The attributes of a node, as characters. -/
def attributeChars : List (String × String) → List Char
  | [] => []
  | each :: rest => pairChars each ++ rest.flatMap fun each => ',' :: ' ' :: pairChars each

theorem toList_intercalate_pair (attributes : List (String × String)) :
    (", ".intercalate (attributes.map fun each => pair each.1 each.2)).toList =
      attributeChars attributes := by
  rw [String.toList_intercalate]
  cases attributes with
  | nil => rfl
  | cons each rest =>
    induction rest generalizing each with
    | nil => simp [attributeChars, toList_pair]
    | cons next rest ih =>
      have hrest := ih next
      simp only [List.map_cons, attributeChars, List.intercalate_cons_cons, toList_pair,
        List.flatMap_cons] at hrest ⊢
      rw [hrest]
      simp

/-- Attributes are told by their text, up to the bracket. -/
theorem attributeChars_append_inj {attributes others : List (String × String)}
    {rest rest' : List Char} (hkeys : ∀ each ∈ attributes, IsName each.1)
    (hkeys' : ∀ each ∈ others, IsName each.1)
    (h : attributeChars attributes ++ ']' :: rest = attributeChars others ++ ']' :: rest') :
    attributes = others ∧ rest = rest' := by
  have hempty : IsName "" := .of_all (by decide)
  -- an attribute begins with a key and no bracket
  have hbracket {each : String × String} {tail tail' : List Char} (hkey : IsName each.1) :
      pairChars each ++ tail ≠ ']' :: tail' := by
    intro heq
    simp only [pairChars, List.append_assoc, List.cons_append, List.nil_append] at heq
    obtain ⟨_, htail⟩ := name_append_inj hkey hempty (by simp) (by simp) heq
    simp at htail
  cases attributes with
  | nil =>
    cases others with
    | nil => exact ⟨rfl, (List.cons.inj h).2⟩
    | cons other others =>
      rw [attributeChars, attributeChars, List.append_assoc] at h
      exact absurd h.symm (hbracket (hkeys' other List.mem_cons_self))
  | cons each attributes =>
    cases others with
    | nil =>
      rw [attributeChars, attributeChars, List.append_assoc] at h
      exact absurd h (hbracket (hkeys each List.mem_cons_self))
    | cons other others =>
      rw [attributeChars, attributeChars, List.append_assoc, List.append_assoc] at h
      obtain ⟨rfl, htail⟩ := pairChars_append_inj (hkeys each List.mem_cons_self)
        (hkeys' other List.mem_cons_self) h
      obtain ⟨rfl, hrest⟩ := flatMap_append_inj (fun each => IsName each.1)
        (fun hkey hkey' heq => pairChars_append_inj hkey hkey' (by simpa using heq)) (by simp)
        (fun each heach => hkeys each (List.mem_cons_of_mem _ heach))
        (fun each heach => hkeys' each (List.mem_cons_of_mem _ heach)) htail
      exact ⟨rfl, hrest⟩

/-! ## Statements and graphs -/

/-- The first name of a line. -/
def Statement.lead : Statement → String
  | .attribute key _ => key
  | .blank => ""
  | .node id _ => id
  | .edge start _ => start

/-- The character after the first name, by which the kinds of statement differ. -/
def Statement.mark : Statement → Char
  | .attribute _ _ => '='
  | .blank => '\n'
  | .node _ _ => '['
  | .edge _ _ => ' '

/-- The line after its mark. -/
def Statement.tail : Statement → List Char
  | .attribute _ value => '"' :: (value.toList.flatMap escapeChar ++ ['"', ';', '\n'])
  | .blank => []
  | .node _ attributes => attributeChars attributes ++ [']', ';', '\n']
  | .edge _ stop => '-' :: '>' :: ' ' :: (stop.toList ++ [';', '\n'])

theorem toList_text_blank : Statement.blank.text.toList = ['\n'] :=
  rfl

theorem toList_text {statement : Statement} (h : statement ≠ .blank) :
    statement.text.toList =
      ' ' :: ' ' :: (statement.lead.toList ++ statement.mark :: statement.tail) := by
  cases statement with
  | «attribute» key value =>
    simp [Statement.text, Statement.lead, Statement.mark, Statement.tail, toList_pair, pairChars]
  | blank => exact absurd rfl h
  | node id attributes =>
    simp only [Statement.text, String.toList_append, toList_intercalate_pair]
    simp [Statement.lead, Statement.mark, Statement.tail]
  | edge start stop => simp [Statement.text, Statement.lead, Statement.mark, Statement.tail]

/-- A statement whose names are names. -/
def Statement.WellNamed : Statement → Prop
  | .attribute key _ => IsName key
  | .blank => True
  | .node id attributes => IsName id ∧ ∀ each ∈ attributes, IsName each.1
  | .edge start stop => IsName start ∧ IsName stop

theorem Statement.WellNamed.isName_lead {statement : Statement} (h : statement.WellNamed) :
    IsName statement.lead := by
  cases statement with
  | «attribute» key value => exact h
  | blank => exact .of_all (by decide)
  | node id attributes => exact h.1
  | edge start stop => exact h.1

/-- After the first name and its mark, the rest of the line tells the statement. -/
theorem tail_append_inj {statement other : Statement} {rest rest' : List Char}
    (hnamed : statement.WellNamed) (hnamed' : other.WellNamed)
    (hlead : statement.lead = other.lead) (hmark : statement.mark = other.mark)
    (h : statement.tail ++ rest = other.tail ++ rest') : statement = other ∧ rest = rest' := by
  cases statement <;> cases other
  case «attribute».«attribute» key value key' value' =>
    obtain rfl : key = key' := hlead
    simp only [Statement.tail, List.cons_append, List.append_assoc, List.cons.injEq, true_and] at h
    obtain ⟨hvalue, hend⟩ := escape_append_inj h
    rw [String.toList_inj.mp hvalue]
    exact ⟨rfl, (List.cons.inj (List.cons.inj hend).2).2⟩
  case blank.blank => exact ⟨rfl, h⟩
  case node.node id attributes id' attributes' =>
    obtain rfl : id = id' := hlead
    simp only [Statement.tail, List.cons_append, List.append_assoc] at h
    obtain ⟨rfl, hend⟩ := attributeChars_append_inj hnamed.2 hnamed'.2 h
    exact ⟨rfl, (List.cons.inj (List.cons.inj hend).2).2⟩
  case edge.edge start stop start' stop' =>
    obtain rfl : start = start' := hlead
    simp only [Statement.tail, List.cons_append, List.append_assoc, List.cons.injEq, true_and] at h
    obtain ⟨rfl, hend⟩ := name_append_inj hnamed.2 hnamed'.2 (by simp) (by simp) h
    exact ⟨rfl, (List.cons.inj (List.cons.inj hend).2).2⟩
  -- statements of two kinds have two marks
  all_goals exact absurd hmark (by simp [Statement.mark])

/-- A statement is told by its line. -/
theorem text_append_inj {statement other : Statement} {rest rest' : List Char}
    (hnamed : statement.WellNamed) (hnamed' : other.WellNamed)
    (h : statement.text.toList ++ rest = other.text.toList ++ rest') :
    statement = other ∧ rest = rest' := by
  have hmark (each : Statement) (tail : List Char) :
      ∀ c ∈ (each.mark :: tail).head?, c.isAlphanum = false := by
    cases each <;> simp [Statement.mark]
  by_cases hblank : statement = .blank <;> by_cases hblank' : other = .blank
  · subst hblank hblank'
    exact ⟨rfl, List.append_cancel_left h⟩
  · subst hblank
    rw [toList_text_blank, toList_text hblank'] at h
    simp at h
  · subst hblank'
    rw [toList_text_blank, toList_text hblank] at h
    simp at h
  · -- past the indentation: the first name, the mark after it, and the rest
    rw [toList_text hblank, toList_text hblank'] at h
    simp only [List.cons_append, List.append_assoc, List.cons.injEq, true_and] at h
    obtain ⟨hlead, htail⟩ := name_append_inj hnamed.isName_lead hnamed'.isName_lead
      (hmark statement _) (hmark other _) h
    exact tail_append_inj hnamed hnamed' hlead (List.cons.inj htail).1 (List.cons.inj htail).2

theorem text_append_ne_brace {statement : Statement} {rest rest' : List Char} :
    statement.text.toList ++ rest ≠ '\x7d' :: rest' := by
  by_cases hblank : statement = .blank
  · subst hblank
    simp [toList_text_blank]
  · simp [toList_text hblank]

theorem toList_graph (name : String) (statements : List Statement) :
    (graph name statements).toList =
      "digraph ".toList ++ name.toList ++ " \x7b\n".toList ++
        (statements.flatMap (fun statement => statement.text.toList) ++ ['\x7d', '\n']) := by
  simp [graph, String.toList_join, List.flatMap_map]

/-- **A graph is told by its text.** -/
theorem graph_inj {name : String} {statements others : List Statement}
    (hnamed : ∀ statement ∈ statements, statement.WellNamed)
    (hnamed' : ∀ statement ∈ others, statement.WellNamed)
    (h : graph name statements = graph name others) : statements = others := by
  have hchars := congrArg String.toList h
  rw [toList_graph, toList_graph] at hchars
  exact (flatMap_append_inj Statement.WellNamed text_append_inj (fun _ => text_append_ne_brace)
    hnamed hnamed' (List.append_cancel_left hchars)).1

/-! ## Lines -/

theorem newline_notMem_attributeChars {attributes : List (String × String)}
    (hkeys : ∀ each ∈ attributes, IsName each.1) : '\n' ∉ attributeChars attributes := by
  cases attributes with
  | nil => simp [attributeChars]
  | cons each rest =>
    intro h
    rcases List.mem_append.mp h with hmem | hmem
    · exact newline_notMem_pairChars (hkeys each List.mem_cons_self) hmem
    · obtain ⟨other, hother, hmem⟩ := List.mem_flatMap.mp hmem
      have hpair := newline_notMem_pairChars (hkeys other (List.mem_cons_of_mem _ hother))
      simp [hpair] at hmem

/-- A statement has one newline, at its end. -/
theorem count_newline_text {statement : Statement} (hnamed : statement.WellNamed) :
    statement.text.toList.count '\n' = 1 := by
  by_cases hblank : statement = .blank
  · subst hblank
    rfl
  · rw [toList_text hblank]
    have hlead := List.count_eq_zero.mpr (newline_notMem_name hnamed.isName_lead)
    cases statement with
    | «attribute» key value =>
      have hvalue := List.count_eq_zero.mpr (newline_notMem_escape value.toList)
      simp [Statement.mark, Statement.tail, hlead, hvalue]
    | blank => exact absurd rfl hblank
    | node id attributes =>
      have hattributes := List.count_eq_zero.mpr (newline_notMem_attributeChars hnamed.2)
      simp [Statement.mark, Statement.tail, hlead, hattributes]
    | edge start stop =>
      have hstop := List.count_eq_zero.mpr (newline_notMem_name hnamed.2)
      simp [Statement.mark, Statement.tail, hlead, hstop]

/-- **Every statement stays on its own line**: a graph has a newline for each of
them, one for its first line and one for its last. -/
theorem count_newline_graph {name : String} {statements : List Statement} (hname : IsName name)
    (hnamed : ∀ statement ∈ statements, statement.WellNamed) :
    (graph name statements).toList.count '\n' = statements.length + 2 := by
  have hlines : (statements.flatMap fun statement => statement.text.toList).count '\n' =
      statements.length := by
    induction statements with
    | nil => rfl
    | cons statement statements ih =>
      rw [List.flatMap_cons, List.count_append,
        count_newline_text (hnamed statement List.mem_cons_self),
        ih fun each heach => hnamed each (List.mem_cons_of_mem _ heach), List.length_cons,
        Nat.add_comm]
  have hfirst := List.count_eq_zero.mpr (newline_notMem_name hname)
  rw [toList_graph]
  simp +arith [List.count_append, hlines, hfirst]

end Dot

end SyntaxForest
