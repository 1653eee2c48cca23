import SyntaxForest.Toml.DateTime
import SyntaxForest.Toml.Number

/-! Characters, strings and keys of TOML documents: blanks, line ends and
comments; the four forms of a string; bare, quoted and dotted keys. -/

namespace SyntaxForest.Toml

/-- Blanks within a line. -/
def isSpace (c : Char) : Bool :=
  c = ' ' || c = '\t'

/-- What follows the blanks in front. -/
def skipSpace (text : List Char) : List Char :=
  text.dropWhile isSpace

/-- Whether a character may stand as itself in strings and comments: all but the
control characters, of which a tab may. -/
def isPlain (c : Char) : Bool :=
  c = '\t' || (0x20 ≤ c.toNat && c.toNat ≠ 0x7F)

/-- What follows a line break. -/
def newline? : List Char → Option (List Char)
  | '\n' :: rest => some rest
  | '\r' :: '\n' :: rest => some rest
  | _ => none

/-- What follows a comment. -/
def skipComment : List Char → List Char
  | '#' :: rest => rest.dropWhile isPlain
  | text => text

/-- What follows the rest of a line on which nothing more may stand. -/
def lineEnd? (text : List Char) : Option (List Char) :=
  match skipComment (skipSpace text) with
  | [] => some []
  | rest => newline? rest

/-- What follows blanks, line breaks and comments.  Every unit of `fuel` pays for
one line break. -/
def skipLines? : Nat → List Char → Option (List Char)
  | 0, _ => none
  | fuel + 1, text =>
    match skipSpace text with
    | '#' :: rest => (newline? (rest.dropWhile isPlain)).bind (skipLines? fuel)
    | rest =>
      match newline? rest with
      | some rest => skipLines? fuel rest
      | none => some rest

/-- A character given by its number in hexadecimal. -/
def hexChar? (digits : List Char) : Option Char := do
  let values ← digits.mapM (digitOf? 16)
  let code := ofDigits 16 values
  if code.isValidChar then some (Char.ofNat code) else none

/-- Reads what stands after a backslash. -/
def unescape? : List Char → Option (Char × List Char)
  | 'b' :: rest => some ('\x08', rest)
  | 't' :: rest => some ('\t', rest)
  | 'n' :: rest => some ('\n', rest)
  | 'f' :: rest => some ('\x0c', rest)
  | 'r' :: rest => some ('\r', rest)
  | '"' :: rest => some ('"', rest)
  | '\\' :: rest => some ('\\', rest)
  | 'u' :: a :: b :: c :: d :: rest => (hexChar? [a, b, c, d]).map (·, rest)
  | 'U' :: a :: b :: c :: d :: e :: f :: g :: h :: rest =>
    (hexChar? [a, b, c, d, e, f, g, h]).map (·, rest)
  | _ => none

/-- Reads a string in double quotes after the first of them.  Every unit of `fuel`
pays for one character of the string. -/
def basicBody? : Nat → List Char → Option (List Char × List Char)
  | 0, _ => none
  | _ + 1, [] => none
  | _ + 1, '"' :: rest => some ([], rest)
  | fuel + 1, '\\' :: rest => do
    let (c, rest) ← unescape? rest
    let (body, rest) ← basicBody? fuel rest
    some (c :: body, rest)
  | fuel + 1, c :: rest => do
    guard (isPlain c)
    let (body, rest) ← basicBody? fuel rest
    some (c :: body, rest)

/-- What follows the blanks and line breaks in front. -/
def skipBreaks : List Char → List Char
  | '\r' :: '\n' :: rest => skipBreaks rest
  | c :: rest => if isSpace c || c = '\n' then skipBreaks rest else c :: rest
  | [] => []

/-- What follows a line break that is escaped, with the blanks and line breaks
after it. -/
def escapedBreak? (text : List Char) : Option (List Char) :=
  (newline? (skipSpace text)).map skipBreaks

/-- Reads a string in three double quotes after the first three.  At its end up to
two quotes may belong to the string. -/
def blockBody? : Nat → List Char → Option (List Char × List Char)
  | 0, _ => none
  | _ + 1, [] => none
  | _ + 1, '"' :: '"' :: '"' :: '"' :: '"' :: rest => some (['"', '"'], rest)
  | _ + 1, '"' :: '"' :: '"' :: '"' :: rest => some (['"'], rest)
  | _ + 1, '"' :: '"' :: '"' :: rest => some ([], rest)
  | fuel + 1, '\\' :: rest =>
    match escapedBreak? rest with
    | some rest => blockBody? fuel rest
    | none => do
      let (c, rest) ← unescape? rest
      let (body, rest) ← blockBody? fuel rest
      some (c :: body, rest)
  | fuel + 1, '\r' :: '\n' :: rest => do
    let (body, rest) ← blockBody? fuel rest
    some ('\n' :: body, rest)
  | fuel + 1, c :: rest => do
    guard (isPlain c || c = '\n')
    let (body, rest) ← blockBody? fuel rest
    some (c :: body, rest)

/-- Reads a string in single quotes after the first of them. -/
def literalBody? (text : List Char) : Option (List Char × List Char) :=
  let isBody := fun c => isPlain c && c ≠ '\''
  match text.dropWhile isBody with
  | '\'' :: rest => some (text.takeWhile isBody, rest)
  | _ => none

/-- Reads a string in three single quotes after the first three.  At its end up to
two quotes may belong to the string. -/
def literalBlockBody? : List Char → Option (List Char × List Char)
  | [] => none
  | '\'' :: '\'' :: '\'' :: '\'' :: '\'' :: rest => some (['\'', '\''], rest)
  | '\'' :: '\'' :: '\'' :: '\'' :: rest => some (['\''], rest)
  | '\'' :: '\'' :: '\'' :: rest => some ([], rest)
  | '\r' :: '\n' :: rest => do
    let (body, rest) ← literalBlockBody? rest
    some ('\n' :: body, rest)
  | c :: rest => do
    guard (isPlain c || c = '\n')
    let (body, rest) ← literalBlockBody? rest
    some (c :: body, rest)

/-- The text without a line break at its start. -/
def dropBreak (text : List Char) : List Char :=
  (newline? text).getD text

/-- Reads a string that stands on one line. -/
def lineString? : List Char → Option (String × List Char)
  | '"' :: rest => (basicBody? (rest.length + 1) rest).map fun (body, rest) => (.ofList body, rest)
  | '\'' :: rest => (literalBody? rest).map fun (body, rest) => (.ofList body, rest)
  | _ => none

/-- Reads a string of any form. -/
def string? : List Char → Option (String × List Char)
  | '"' :: '"' :: '"' :: rest =>
    (blockBody? (rest.length + 1) (dropBreak rest)).map fun (body, rest) => (.ofList body, rest)
  | '\'' :: '\'' :: '\'' :: rest =>
    (literalBlockBody? (dropBreak rest)).map fun (body, rest) => (.ofList body, rest)
  | text => lineString? text

/-- Whether a character may stand in a key without quotes. -/
def isBareKeyChar (c : Char) : Bool :=
  c.isAlphanum || c = '_' || c = '-'

/-- Reads one part of a key. -/
def keyPart? (text : List Char) : Option (String × List Char) :=
  match text with
  | '"' :: _ => lineString? text
  | '\'' :: _ => lineString? text
  | _ =>
    let bare := text.takeWhile isBareKeyChar
    if bare.isEmpty then none else some (.ofList bare, text.dropWhile isBareKeyChar)

/-- Reads the parts of a key, with points between them.  Every unit of `fuel` pays
for one part. -/
def keyParts? : Nat → List Char → Option (List String × List Char)
  | 0, _ => none
  | fuel + 1, text => do
    let (part, rest) ← keyPart? (skipSpace text)
    match skipSpace rest with
    | '.' :: rest =>
      let (parts, rest) ← keyParts? fuel rest
      some (part :: parts, rest)
    | rest => some ([part], rest)

/-- How deep a document may go: keys have fewer parts than this, and values are
nested fewer times. -/
def depthLimit : Nat := 80

/-- Reads a key with the blanks around it. -/
def key? (text : List Char) : Option (List String × List Char) :=
  keyParts? (depthLimit - 1) text

end SyntaxForest.Toml
