/-! Blank characters, words, and texts with single spaces.  A character is blank
when it has the Unicode property `White_Space`.  A text is read as its sequence
of words, the maximal runs of characters that are not blank, and `collapse`
writes that sequence with one space between neighbours. -/

namespace SyntaxForest.Text

/-- Closed ranges of code points, in increasing order and apart from each other. -/
abbrev Ranges := List (Nat × Nat)

/-- Whether the code point of a character is in one of the ranges. -/
def Ranges.contain (ranges : Ranges) (c : Char) : Bool :=
  ranges.any fun range => range.1 ≤ c.toNat && c.toNat ≤ range.2

/-- The blank code points. -/
def blankRanges : Ranges :=
  [(0x09, 0x0D), (0x20, 0x20), (0x85, 0x85), (0xA0, 0xA0), (0x1680, 0x1680),
   (0x2000, 0x200A), (0x2028, 0x2029), (0x202F, 0x202F), (0x205F, 0x205F),
   (0x3000, 0x3000)]

/-- Whether a character has the property `White_Space`. -/
def isBlank (c : Char) : Bool :=
  blankRanges.contain c

/-- The words of a text, in order.  A character that is not blank begins a word
of its own when a blank or the end follows it, and otherwise stands in front of
the word that comes next. -/
def words : List Char → List (List Char)
  | [] => []
  | c :: rest =>
    if isBlank c then words rest
    else
      match rest, words rest with
      | d :: _, word :: more =>
        if isBlank d then [c] :: word :: more else (c :: word) :: more
      | _, later => [c] :: later

/-- The words of a text with one space between neighbours. -/
def collapseChars (text : List Char) : List Char :=
  [' '].intercalate (words text)

@[inherit_doc collapseChars]
def collapse (text : String) : String :=
  String.ofList (collapseChars text.toList)

/-- The text without the blanks in front of its first word. -/
def trimStart (text : List Char) : List Char :=
  text.dropWhile isBlank

/-- The text without the blanks around it. -/
def trim (text : String) : String :=
  String.ofList (trimStart (trimStart text.toList).reverse).reverse

end SyntaxForest.Text
