import SyntaxForest.Java.Rows
import SyntaxForest.Proofs.ParseErrors
import SyntaxForest.Proofs.Projection

/-! Positions in a given text.  The nodes of a snippet have their bytes and rows in the
text with a class around it, but the texts and lines that are read off them are those of
the text that was given.  The opening of the class shifts the bytes by its length and the
rows by one, since its only newline is its last byte. -/

namespace SyntaxForest

namespace Text

/-! ## Parts of a text, by bytes -/

theorem byteLength_ofList (text : List Char) :
    byteLength text = (String.ofList text).utf8ByteSize := by
  induction text with
  | nil => rfl
  | cons c rest ih =>
    rw [byteLength, ih, String.ofList_cons, String.utf8ByteSize_append,
      String.utf8ByteSize_singleton]

theorem byteLength_toList (text : String) : byteLength text.toList = text.utf8ByteSize := by
  rw [byteLength_ofList, String.ofList_toList]

theorem byteLength_append (front back : List Char) :
    byteLength (front ++ back) = byteLength front + byteLength back := by
  induction front with
  | nil => exact (Nat.zero_add _).symm
  | cons c front ih => rw [List.cons_append, byteLength, byteLength, ih, Nat.add_assoc]

theorem eq_nil_of_byteLength_eq_zero {text : List Char} (h : byteLength text = 0) : text = [] := by
  cases text with
  | nil => rfl
  | cons c rest =>
    have hpos := c.utf8Size_pos
    rw [byteLength] at h
    omega

/-- A text is cut behind the characters that stand before a position. -/
theorem cut_append (front back : List Char) :
    takeBytes (byteLength front) (front ++ back) = some front ∧
      dropBytes (byteLength front) (front ++ back) = some back := by
  induction front with
  | nil => cases back <;> exact ⟨rfl, rfl⟩
  | cons c front ih =>
    have hpos := c.utf8Size_pos
    obtain ⟨n, hn⟩ : ∃ n, byteLength (c :: front) = n + 1 :=
      Nat.exists_eq_add_one.mpr (by rw [byteLength]; omega)
    have hfits : c.utf8Size ≤ n + 1 := by rw [← hn, byteLength]; omega
    have hrest : n + 1 - c.utf8Size = byteLength front := by rw [← hn, byteLength]; omega
    rw [hn, List.cons_append, takeBytes, dropBytes, if_pos hfits, if_pos hfits, hrest, ih.1, ih.2]
    exact ⟨rfl, rfl⟩

/-- It is not cut where a character straddles the position or the text ends before it. -/
theorem cut_cases (n : Nat) (text : List Char) :
    (takeBytes n text = none ∧ dropBytes n text = none) ∨
      ∃ before after, text = before ++ after ∧ byteLength before = n := by
  induction text generalizing n with
  | nil =>
    cases n with
    | zero => exact .inr ⟨[], [], rfl, rfl⟩
    | succ n => exact .inl ⟨rfl, rfl⟩
  | cons c text ih =>
    cases n with
    | zero => exact .inr ⟨[], c :: text, rfl, rfl⟩
    | succ n =>
      rw [takeBytes, dropBytes]
      by_cases hfits : c.utf8Size ≤ n + 1
      · rw [if_pos hfits, if_pos hfits]
        rcases ih (n + 1 - c.utf8Size) with ⟨htake, hdrop⟩ | ⟨before, after, rfl, hlength⟩
        · exact .inl ⟨by rw [htake]; rfl, hdrop⟩
        · exact .inr ⟨c :: before, after, rfl, by rw [byteLength, hlength]; omega⟩
      · rw [if_neg hfits, if_neg hfits]
        exact .inl ⟨rfl, rfl⟩

theorem takeBytes_eq_some_iff {n : Nat} {text part : List Char} :
    takeBytes n text = some part ↔ ∃ after, text = part ++ after ∧ byteLength part = n := by
  constructor
  · intro h
    rcases cut_cases n text with ⟨hnone, -⟩ | ⟨before, after, rfl, rfl⟩
    · rw [hnone] at h
      cases h
    · rw [(cut_append before after).1] at h
      obtain rfl := Option.some.inj h
      exact ⟨after, rfl, rfl⟩
  · rintro ⟨after, rfl, rfl⟩
    exact (cut_append part after).1

theorem dropBytes_eq_some_iff {n : Nat} {text rest : List Char} :
    dropBytes n text = some rest ↔ ∃ before, text = before ++ rest ∧ byteLength before = n := by
  constructor
  · intro h
    rcases cut_cases n text with ⟨-, hnone⟩ | ⟨before, after, rfl, rfl⟩
    · rw [hnone] at h
      cases h
    · rw [(cut_append before after).2] at h
      obtain rfl := Option.some.inj h
      exact ⟨before, rfl, rfl⟩
  · rintro ⟨before, rfl, rfl⟩
    exact (cut_append before rest).2

/-- The characters between two byte positions of a text are those of a part of it. -/
def IsSlice (text : List Char) (start stop : Nat) (part : List Char) : Prop :=
  ∃ before after, text = before ++ part ++ after ∧ byteLength before = start ∧
    start + byteLength part = stop

theorem slice?_eq_some_iff {text part : List Char} {start stop : Nat} :
    slice? text start stop = some part ↔ IsSlice text start stop part := by
  unfold slice?
  constructor
  · intro h
    split at h
    · rename_i hle
      obtain ⟨rest, hrest, hpart⟩ := Option.bind_eq_some_iff.mp h
      obtain ⟨before, rfl, hbefore⟩ := dropBytes_eq_some_iff.mp hrest
      obtain ⟨after, rfl, hlength⟩ := takeBytes_eq_some_iff.mp hpart
      exact ⟨before, after, (List.append_assoc ..).symm, hbefore, by omega⟩
    · cases h
  · rintro ⟨before, after, rfl, hbefore, rfl⟩
    rw [if_pos (Nat.le_add_right _ _), Option.bind_eq_some_iff]
    refine ⟨part ++ after, dropBytes_eq_some_iff.mpr ⟨before, ?_, hbefore⟩,
      takeBytes_eq_some_iff.mpr ⟨after, rfl, ?_⟩⟩
    · exact List.append_assoc ..
    · omega

/-- Of two ways to cut a text, the later one goes on from the earlier one. -/
theorem exists_middle_of_append_eq {front back before rest : List Char}
    (h : front ++ back = before ++ rest) (hle : byteLength front ≤ byteLength before) :
    ∃ middle, before = front ++ middle ∧ back = middle ++ rest := by
  rcases List.append_eq_append_iff.mp h with ⟨middle, hbefore, hback⟩ | ⟨middle, hfront, hrest⟩
  · exact ⟨middle, hbefore, hback⟩
  · rw [hfront, byteLength_append] at hle
    obtain rfl : middle = [] := eq_nil_of_byteLength_eq_zero (by omega)
    rw [List.append_nil] at hfront
    exact ⟨[], by rw [hfront, List.append_nil], by rw [hrest]; rfl⟩

/-- What stands around a text does not change its slices, only their positions. -/
theorem isSlice_append_iff {front text back part : List Char} {start stop : Nat}
    (h : stop ≤ byteLength text) :
    IsSlice (front ++ text ++ back) (byteLength front + start) (byteLength front + stop) part ↔
      IsSlice text start stop part := by
  constructor
  · rintro ⟨before, after, htext, hbefore, hpart⟩
    rw [List.append_assoc, List.append_assoc] at htext
    obtain ⟨middle, rfl, hrest⟩ := exists_middle_of_append_eq htext (by omega)
    rw [byteLength_append] at hbefore
    -- the text goes on behind the slice, up to what stands after it
    have hend : (middle ++ part) ++ after = text ++ back := by
      rw [List.append_assoc, ← hrest]
    obtain ⟨last, hlast, -⟩ := exists_middle_of_append_eq hend (by rw [byteLength_append]; omega)
    exact ⟨middle, last, hlast, by omega, by omega⟩
  · rintro ⟨before, after, rfl, hbefore, hpart⟩
    refine ⟨front ++ before, after ++ back, ?_, ?_, ?_⟩
    · simp only [List.append_assoc]
    · rw [byteLength_append, hbefore]
    · rw [Nat.add_assoc, hpart]

/-! ## Newlines before a position -/

/-- How many newlines are among the first bytes of a text. -/
def newlinesBefore (text : String) (position : Nat) : Nat :=
  (text.toByteArray.data.toList.take position).count 10

theorem newlinesBefore_mono (text : String) {position later : Nat} (h : position ≤ later) :
    newlinesBefore text position ≤ newlinesBefore text later :=
  (List.take_sublist_take_left h).count_le 10

/-- What stands before a text brings its own newlines. -/
theorem newlinesBefore_append_right (front back : String) (position : Nat) :
    newlinesBefore (front ++ back) (front.utf8ByteSize + position) =
      newlinesBefore front front.utf8ByteSize + newlinesBefore back position := by
  have hlength : front.toByteArray.data.toList.length = front.utf8ByteSize := rfl
  rw [newlinesBefore, String.toByteArray_append, ByteArray.data_append, Array.toList_append,
    List.take_append, hlength, Nat.add_sub_cancel_left, List.count_append, newlinesBefore,
    newlinesBefore, ← hlength, List.take_length, List.take_of_length_le (Nat.le_add_right _ _)]

/-- What stands after a position does not count. -/
theorem newlinesBefore_append_left {front : String} (back : String) {position : Nat}
    (h : position ≤ front.utf8ByteSize) :
    newlinesBefore (front ++ back) position = newlinesBefore front position := by
  rw [newlinesBefore, String.toByteArray_append, ByteArray.data_append, Array.toList_append,
    List.take_append_of_le_length h, newlinesBefore]

end Text

namespace Java

/-- The rows of a node are those of its bytes in a text. -/
structure ParseTree.IsPlacedIn (tree : ParseTree) (text : String) : Prop where
  start_le_stop : tree.head.startByte ≤ tree.head.stopByte
  startRow_eq : tree.head.startRow = Text.newlinesBefore text tree.head.startByte
  stopRow_eq : tree.head.stopRow = Text.newlinesBefore text tree.head.stopByte

namespace Source

/-- How many bytes stand before the given text in the text that was parsed. -/
def shift (source : Source) : Nat :=
  if source.isWrapped then snippetOpen.utf8ByteSize else 0

theorem textOf_of_isSlice {source : Source} {tree : ParseTree} {part : List Char}
    (h : Text.IsSlice source.text.toList tree.head.startByte tree.head.stopByte part) :
    source.textOf tree = part := by
  rw [textOf, Text.slice?_eq_some_iff.mpr h, Option.getD_some]

theorem textOf_of_not_isSlice {source : Source} {tree : ParseTree}
    (h : ∀ part,
      ¬ Text.IsSlice source.text.toList tree.head.startByte tree.head.stopByte part) :
    source.textOf tree = [] := by
  rw [textOf]
  cases hslice : Text.slice? source.text.toList tree.head.startByte tree.head.stopByte with
  | none => rfl
  | some part => exact absurd (Text.slice?_eq_some_iff.mp hslice) (h part)

theorem toNat_line (source : Source) (row : Nat) :
    (source.line row).toNat =
      max 1 (row + 1 - if source.isWrapped then 1 else 0) % UInt32.size := rfl

/-- The lines of rows that can be counted are in order, from the first line on. -/
theorem line_le_line (source : Source) {row later : Nat} (h : row ≤ later)
    (hfits : later + 1 < UInt32.size) :
    1 ≤ (source.line row).toNat ∧ (source.line row).toNat ≤ (source.line later).toNat := by
  rw [toNat_line, toNat_line, Nat.mod_eq_of_lt, Nat.mod_eq_of_lt]
  · exact ⟨Nat.le_max_left _ _, by omega⟩
  all_goals omega

section
variable {parse : Parser} {text : String}

theorem ofText_cases (parse : Parser) (text : String) :
    (ofText parse text).isWrapped = true ∧ (ofText parse text).text = wrap text ∨
      (ofText parse text).isWrapped = false ∧ (ofText parse text).text = text := by
  rw [ofText_eq]
  split
  · exact .inl ⟨rfl, rfl⟩
  · exact .inr ⟨rfl, rfl⟩

theorem isSlice_ofText_iff {start stop : Nat} {part : List Char}
    (h : stop ≤ text.utf8ByteSize) :
    Text.IsSlice (ofText parse text).text.toList ((ofText parse text).shift + start)
        ((ofText parse text).shift + stop) part ↔
      Text.IsSlice text.toList start stop part := by
  rcases ofText_cases parse text with ⟨hwrapped, htext⟩ | ⟨hwrapped, htext⟩
  · rw [htext, shift, if_pos hwrapped, wrap, String.toList_append, String.toList_append,
      ← Text.byteLength_toList]
    exact Text.isSlice_append_iff (by rw [Text.byteLength_toList]; exact h)
  · rw [htext, shift, if_neg (by rw [hwrapped]; decide), Nat.zero_add, Nat.zero_add]

/-- The opening of the class ends its only line. -/
theorem newlinesBefore_snippetOpen :
    Text.newlinesBefore snippetOpen snippetOpen.utf8ByteSize = 1 := by
  decide +kernel

theorem newlinesBefore_ofText (parse : Parser) {position : Nat}
    (h : position ≤ text.utf8ByteSize) :
    Text.newlinesBefore (ofText parse text).text ((ofText parse text).shift + position) =
      Text.newlinesBefore text position + if (ofText parse text).isWrapped then 1 else 0 := by
  rcases ofText_cases parse text with ⟨hwrapped, htext⟩ | ⟨hwrapped, htext⟩
  · rw [htext, shift, if_pos hwrapped, if_pos hwrapped, wrap, String.append_assoc,
      Text.newlinesBefore_append_right, Text.newlinesBefore_append_left _ h,
      newlinesBefore_snippetOpen, Nat.add_comm]
  · have hnot : ¬ (ofText parse text).isWrapped = true := by rw [hwrapped]; decide
    rw [htext, shift, if_neg hnot, if_neg hnot, Nat.zero_add, Nat.add_zero]

/-- The row of a position that is in the given text has the line that it has there. -/
theorem toNat_line_ofText {position : Nat} (h : position ≤ text.utf8ByteSize) :
    ((ofText parse text).line (Text.newlinesBefore (ofText parse text).text
        ((ofText parse text).shift + position))).toNat =
      (1 + Text.newlinesBefore text position) % UInt32.size := by
  rw [toNat_line, newlinesBefore_ofText parse h]
  congr 1
  omega

section
variable {tree : ParseTree} (h : tree.IsPlacedIn (ofText parse text).text)
include h

theorem span_ordered (hfits : tree.head.stopRow + 1 < UInt32.size) :
    1 ≤ ((ofText parse text).span tree).start ∧
      ((ofText parse text).span tree).start ≤ ((ofText parse text).span tree).stop := by
  have hrows : tree.head.startRow ≤ tree.head.stopRow := by
    rw [h.startRow_eq, h.stopRow_eq]
    exact Text.newlinesBefore_mono _ h.start_le_stop
  exact line_le_line _ hrows hfits

variable {start stop : Nat} (hstart : tree.head.startByte = (ofText parse text).shift + start)
  (hstop : tree.head.stopByte = (ofText parse text).shift + stop)
  (hle : stop ≤ text.utf8ByteSize)
include hstart hstop hle

theorem span_ofText : (ofText parse text).span tree =
    ⟨(1 + Text.newlinesBefore text start) % UInt32.size,
      (1 + Text.newlinesBefore text stop) % UInt32.size⟩ := by
  have hordered := h.start_le_stop
  have hstartLe : start ≤ text.utf8ByteSize := by omega
  rw [span, h.startRow_eq, h.stopRow_eq, hstart, hstop, toNat_line_ofText hstartLe,
    toNat_line_ofText hle]

theorem span_ofText_of_lt (hfits : tree.head.stopRow + 1 < UInt32.size) :
    (ofText parse text).span tree =
      ⟨1 + Text.newlinesBefore text start, 1 + Text.newlinesBefore text stop⟩ := by
  have hrow : tree.head.stopRow = _ := h.stopRow_eq
  rw [hstop, newlinesBefore_ofText parse hle] at hrow
  have hordered := h.start_le_stop
  have hmono : Text.newlinesBefore text start ≤ Text.newlinesBefore text stop :=
    Text.newlinesBefore_mono text (by omega)
  rw [span_ofText h hstart hstop hle, Nat.mod_eq_of_lt (by omega), Nat.mod_eq_of_lt (by omega)]

end

/-- **Positions refer to the given text**, wrapped or not.  A node between two bytes of
it has the text between them, or none when a character straddles one of them, and covers
the lines from one after the newlines before its start to one after those before its stop,
counted in 32 bits.  Where they can be counted so, the lines of any node that starts
before it stops are in order, from the first line on. -/
theorem positions_in_given_text (parse : Parser) (text : String) (tree : ParseTree)
    (h : tree.IsPlacedIn (ofText parse text).text) :
    let source := ofText parse text
    let start := tree.head.startByte - source.shift
    let stop := tree.head.stopByte - source.shift
    let isInside := source.shift ≤ tree.head.startByte ∧
      tree.head.stopByte ≤ source.shift + text.utf8ByteSize
    (isInside →
      (∀ part, Text.IsSlice text.toList start stop part → source.textOf tree = part) ∧
      ((∀ part, ¬ Text.IsSlice text.toList start stop part) → source.textOf tree = []) ∧
      source.span tree =
        ⟨(1 + Text.newlinesBefore text start) % UInt32.size,
          (1 + Text.newlinesBefore text stop) % UInt32.size⟩) ∧
    (tree.head.stopRow + 1 < UInt32.size →
      1 ≤ (source.span tree).start ∧ (source.span tree).start ≤ (source.span tree).stop ∧
      (isInside →
        source.span tree =
          ⟨1 + Text.newlinesBefore text start, 1 + Text.newlinesBefore text stop⟩)) ∧
    ∀ id way, source.listing[id]? = some (way, tree) →
      ∃ node, source.project.get? id = some node ∧ node.span = some (source.span tree) := by
  intro source start stop isInside
  have hle := h.start_le_stop
  have hbytes (hin : isInside) : tree.head.startByte = source.shift + start ∧
      tree.head.stopByte = source.shift + stop ∧ stop ≤ text.utf8ByteSize := by
    obtain ⟨hstart, hstop⟩ := hin
    refine ⟨?_, ?_, ?_⟩ <;> omega
  refine ⟨?_, ?_, ?_⟩
  · intro hin
    obtain ⟨hstart, hstop, hstopLe⟩ := hbytes hin
    have hslice (part : List Char) :
        Text.IsSlice source.text.toList tree.head.startByte tree.head.stopByte part ↔
          Text.IsSlice text.toList start stop part := by
      rw [hstart, hstop]
      exact isSlice_ofText_iff hstopLe
    refine ⟨?_, ?_, span_ofText h hstart hstop hstopLe⟩
    · intro part hpart
      exact textOf_of_isSlice ((hslice part).mpr hpart)
    · intro hnone
      apply textOf_of_not_isSlice
      intro part hpart
      exact hnone part ((hslice part).mp hpart)
  · intro hfits
    obtain ⟨hfirst, hordered⟩ := span_ordered h hfits
    refine ⟨hfirst, hordered, ?_⟩
    intro hin
    obtain ⟨hstart, hstop, hstopLe⟩ := hbytes hin
    exact span_ofText_of_lt h hstart hstop hstopLe hfits
  · intro id way hentry
    obtain ⟨node, hnode, hstored⟩ := source.tells_project.get? hentry
    exact ⟨node, hnode, hstored.span_eq⟩

end

/-- A method on two lines, behind a comment with a character of two bytes. -/
def accentedText : String := "/* é */ void f() \x7b\n\x7d"

/-- The parse tree of the method of `accentedText`, behind so many bytes and rows. -/
def accentedMethod (bytes row : Nat) : ParseTree :=
  .node (.ofFlags "method_declaration" 1 none (bytes + 9) (bytes + 21) row (row + 1))
    [.node (.ofFlags "void_type" 1 (some "type") (bytes + 9) (bytes + 13) row row) [],
     .node (.ofFlags "identifier" 1 (some "name") (bytes + 14) (bytes + 15) row row) [],
     .node (.ofFlags "formal_parameters" 1 (some "parameters") (bytes + 15) (bytes + 17) row row)
      [.node (.ofFlags "(" 0 none (bytes + 15) (bytes + 16) row row) [],
       .node (.ofFlags ")" 0 none (bytes + 16) (bytes + 17) row row) []],
     .node (.ofFlags "block" 1 (some "body") (bytes + 18) (bytes + 21) row (row + 1))
      [.node (.ofFlags "\x7b" 0 none (bytes + 18) (bytes + 19) row row) [],
       .node (.ofFlags "\x7d" 0 none (bytes + 20) (bytes + 21) (row + 1) (row + 1)) []]]

/-- The parse trees of `accentedText`, behind so many bytes and rows. -/
def accentedTrees (bytes row : Nat) : List ParseTree :=
  [.node (.ofFlags "block_comment" 1 none bytes (bytes + 8) row row) [], accentedMethod bytes row]

/-- A parser that knows `accentedText`, wrapped and not. -/
def accentedParser : Parser := fun text =>
  if text = wrap accentedText then
    .node (.ofFlags "program" 1 none 0 50 0 4)
      [.node (.ofFlags "class_declaration" 1 none 0 49 0 3)
        [.node (.ofFlags "class" 0 none 0 5 0 0) [],
         .node (.ofFlags "identifier" 1 (some "name") 6 23 0 0) [],
         .node (.ofFlags "class_body" 1 (some "body") 24 49 0 3)
          ([.node (.ofFlags "\x7b" 0 none 24 25 0 0) []] ++ accentedTrees 26 1 ++
            [.node (.ofFlags "\x7d" 0 none 48 49 3 3) []])]]
  else .node (.ofFlags "program" 1 none 0 21 0 1) (accentedTrees 0 0)

/-- A node that would begin inside the character of two bytes. -/
def tornNode : ParseTree :=
  .node (.ofFlags "block_comment" 1 none (26 + 4) (26 + 8) 1 1) []

theorem positions_in_given_text_accented :
    let source := ofText accentedParser accentedText
    let method := accentedMethod 26 1
    let torn := tornNode
    source.isWrapped = true ∧ method.IsPlacedIn source.text ∧ torn.IsPlacedIn source.text ∧
      Text.IsSlice accentedText.toList 9 21 "void f() \x7b\n\x7d".toList ∧
      source.textOf method = "void f() \x7b\n\x7d".toList ∧
      (∀ part, ¬ Text.IsSlice accentedText.toList 4 8 part) ∧ source.textOf torn = [] ∧
      source.span method = ⟨1, 2⟩ ∧ 1 ≤ (source.span torn).start ∧
      ∃ node, source.project.get? 3 = some node ∧ node.span = some ⟨1, 2⟩ := by
  intro source method torn
  have hwrapped : source.isWrapped = true := by decide +kernel
  have hshift : source.shift = 26 := by decide +kernel
  have hsize : accentedText.utf8ByteSize = 21 := by decide +kernel
  have hmethod : method.IsPlacedIn source.text :=
    ⟨by decide +kernel, by decide +kernel, by decide +kernel⟩
  have htorn : torn.IsPlacedIn source.text :=
    ⟨by decide +kernel, by decide +kernel, by decide +kernel⟩
  have hpart : Text.IsSlice accentedText.toList 9 21 "void f() \x7b\n\x7d".toList :=
    ⟨"/* é */ ".toList, [], by decide +kernel, by decide +kernel, by decide +kernel⟩
  have hnone : ∀ part, ¬ Text.IsSlice accentedText.toList 4 8 part := by
    intro part hslice
    have hsplit : Text.slice? accentedText.toList 4 8 = none := by decide +kernel
    rw [← Text.slice?_eq_some_iff, hsplit] at hslice
    cases hslice
  obtain ⟨hinside, hordered, hproject⟩ :=
    positions_in_given_text accentedParser accentedText method hmethod
  obtain ⟨htornInside, htornOrdered, -⟩ :=
    positions_in_given_text accentedParser accentedText torn htorn
  have hin : source.shift ≤ 26 + 9 ∧ 26 + 21 ≤ source.shift + accentedText.utf8ByteSize := by
    rw [hshift, hsize]
    decide
  have htornIn : source.shift ≤ 26 + 4 ∧ 26 + 8 ≤ source.shift + accentedText.utf8ByteSize := by
    rw [hshift, hsize]
    decide
  have hentry : source.listing[3]? = some ([2, 2], method) := by
    have hparse : accentedParser (wrap accentedText) = _ := if_pos rfl
    have hsource : source = ⟨_, _, true⟩ := (ofText_eq _ _).trans (if_pos hwrapped)
    rw [hsource, hparse]
    rfl
  have hspan : source.span method = ⟨1, 2⟩ :=
    ((hordered (by decide)).2.2 hin).trans (by decide +kernel)
  have htext := (hinside hin).1 "void f() \x7b\n\x7d".toList (by rw [hshift]; exact hpart)
  have hempty := (htornInside htornIn).2.1 (by rw [hshift]; exact hnone)
  obtain ⟨node, hnode, hstored⟩ := hproject 3 [2, 2] hentry
  exact ⟨hwrapped, hmethod, htorn, hpart, htext, hnone, hempty, hspan,
    (htornOrdered (by decide)).1, node, hnode, hstored.trans (congrArg some hspan)⟩

end Source
end Java
end SyntaxForest
