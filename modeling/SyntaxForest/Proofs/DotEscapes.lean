import SyntaxForest.Proofs.DotText

/-! Texts inside quotes.  A reader of quoted texts looks for the quote that closes one,
and on the way a backslash takes the next character with it; what it has read it
then turns back into the text that was written.  Both steps undo `escape`, whatever
comes after the closing quote. -/

namespace SyntaxForest.Dot

/-- Divides a text at the quote that closes it.  A backslash takes the next character
with it. -/
def closeQuote? : List Char → Option (List Char × List Char)
  | [] => none
  | '"' :: rest => some ([], rest)
  | ['\\'] => none
  | '\\' :: taken :: rest =>
    (closeQuote? rest).map fun parts => ('\\' :: taken :: parts.1, parts.2)
  | c :: rest => (closeQuote? rest).map fun parts => (c :: parts.1, parts.2)

/-- The text that was written, from what stands inside quotes.  No backslash stands
alone, or in front of any character but a backslash, a quote and the letter `n`. -/
def unescape? : List Char → Option (List Char)
  | [] => some []
  | '\\' :: '\\' :: rest => (unescape? rest).map ('\\' :: ·)
  | '\\' :: '"' :: rest => (unescape? rest).map ('"' :: ·)
  | '\\' :: 'n' :: rest => (unescape? rest).map ('\n' :: ·)
  | '\\' :: _ => none
  | c :: rest => (unescape? rest).map (c :: ·)

/-! ## Closing quotes -/

/-- What stands for a character does not close the text. -/
theorem closeQuote?_escapeChar (c : Char) (rest : List Char) :
    closeQuote? (escapeChar c ++ rest) =
      (closeQuote? rest).map fun parts => (escapeChar c ++ parts.1, parts.2) := by
  rcases escapeChar_cases c with ⟨_, hw⟩ | ⟨_, hw⟩ | ⟨_, hw⟩ | ⟨hback, hquote, _, hw⟩
  · rw [hw]
    rfl
  · rw [hw]
    rfl
  · rw [hw]
    rfl
  · rw [hw, List.singleton_append, closeQuote?]
    · rfl
    · exact hquote
    · exact fun hc _ => hback hc
    · exact fun _ _ hc _ => hback hc

theorem closeQuote?_flatMap_escapeChar (text rest : List Char) :
    closeQuote? (text.flatMap escapeChar ++ '"' :: rest) =
      some (text.flatMap escapeChar, rest) := by
  induction text with
  | nil => rfl
  | cons c text ih =>
    rw [List.flatMap_cons, List.append_assoc, closeQuote?_escapeChar, ih]
    rfl

/-! ## What was written -/

/-- What stands for a character is read as that character. -/
theorem unescape?_escapeChar (c : Char) (rest : List Char) :
    unescape? (escapeChar c ++ rest) = (unescape? rest).map (c :: ·) := by
  rcases escapeChar_cases c with ⟨rfl, _⟩ | ⟨rfl, _⟩ | ⟨rfl, _⟩ | ⟨hback, _, _, hw⟩
  · rfl
  · rfl
  · rfl
  · simp [hw, unescape?, hback]

theorem unescape?_flatMap_escapeChar (text : List Char) :
    unescape? (text.flatMap escapeChar) = some text := by
  induction text with
  | nil => rfl
  | cons c text ih =>
    rw [List.flatMap_cons, unescape?_escapeChar, ih]
    rfl

/-- **Escaping is one pass that can be undone**, for any text and whatever stands after
its closing quote.  The replacements one after the other come to the single pass over
the characters, which goes through a text part by part; no newline is left; and the
quote that closes the text is found where it was put, with the text inside. -/
theorem escape_can_be_undone (text other rest : String) :
    escape text = String.ofList (text.toList.flatMap escapeChar) ∧
    escape (text ++ other) = escape text ++ escape other ∧
    '\n' ∉ (escape text).toList ∧
    closeQuote? (escape text ++ "\"" ++ rest).toList = some ((escape text).toList, rest.toList) ∧
    unescape? (escape text).toList = some text.toList := by
  have hpass : escape text = String.ofList (text.toList.flatMap escapeChar) := by
    rw [← toList_escape, String.ofList_toList]
  refine ⟨hpass, ?_, ?_, ?_, ?_⟩
  · apply String.toList_inj.mp
    rw [toList_escape, String.toList_append, String.toList_append, toList_escape, toList_escape,
      List.flatMap_append]
  · rw [toList_escape]
    exact newline_notMem_escape text.toList
  · rw [String.toList_append, String.toList_append, toList_escape, List.append_assoc]
    exact closeQuote?_flatMap_escapeChar text.toList rest.toList
  · rw [toList_escape]
    exact unescape?_flatMap_escapeChar text.toList

end SyntaxForest.Dot
