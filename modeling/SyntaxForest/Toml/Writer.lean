import SyntaxForest.Toml.Document
import SyntaxForest.Toml.Format

/-! Writing TOML documents that are made of sections with plain values.  A string
is written in the first of its forms that needs no escapes; if all need some, in
double quotes. -/

namespace SyntaxForest.Toml

/-- The forms in which a string can be written: in double quotes with escapes, in
single quotes as it is, and in three quotes of either kind over several lines. -/
inductive Form where
  | basic
  | literal
  | block
  | literalBlock
deriving DecidableEq, Repr

/-- Control characters, apart from tabs and newlines. -/
def isControl (c : Char) : Bool :=
  (c.toNat < 0x20 && c ≠ '\t' && c ≠ '\n') || c.toNat = 0x7F

/-- Whether a character stands three times in a row. -/
def hasTriple (c : Char) : List Char → Bool
  | first :: second :: third :: rest =>
    (first = c && second = c && third = c) || hasTriple c (second :: third :: rest)
  | _ => false

/-- The form in which a string is written. -/
def Form.ofValue (text : List Char) : Form :=
  if text.all fun c => !isControl c && c ≠ '\n' && c ≠ '"' && c ≠ '\\' then .basic
  else if text.all fun c => !isControl c && c ≠ '\n' && c ≠ '\'' then .literal
  else if (text.all fun c => !isControl c && c ≠ '\\') && !hasTriple '"' text then .block
  else if (text.all fun c => !isControl c) && !hasTriple '\'' text then .literalBlock
  else if text.contains '\n' then .block
  else .basic

/-- The form in which a key is written that needs quotes. -/
def Form.ofKey (text : List Char) : Form :=
  if text.all fun c => !isControl c && c ≠ '\n' && c ≠ '"' && c ≠ '\\' then .basic
  else if text.all fun c => !isControl c && c ≠ '\n' && c ≠ '\'' then .literal
  else .basic

/-- A hexadecimal digit, in upper case. -/
def hexDigit (n : Nat) : Char :=
  (Nat.digitChar n).toUpper

/-- A character in a string in double quotes. -/
def escaped (c : Char) : List Char :=
  if c = '\x08' then ['\\', 'b']
  else if c = '\t' then ['\\', 't']
  else if c = '\n' then ['\\', 'n']
  else if c = '\x0c' then ['\\', 'f']
  else if c = '\r' then ['\\', 'r']
  else if c = '"' then ['\\', '"']
  else if c = '\\' then ['\\', '\\']
  else if isControl c then
    ['\\', 'u', '0', '0', hexDigit (c.toNat / 16), hexDigit (c.toNat % 16)]
  else [c]

/-- The content of a string in three double quotes, after `run` quotes: newlines
stay, and no three quotes stand together. -/
def blockContent : Nat → List Char → List Char
  | _, [] => []
  | run, c :: rest =>
    if c = '"' then
      if run = 2 then '\\' :: '"' :: blockContent 0 rest
      else '"' :: blockContent (run + 1) rest
    else if c = '\n' then '\n' :: blockContent 0 rest
    else escaped c ++ blockContent 0 rest

/-- The newline after the quotes of a string over several lines, of which a reader
takes no notice. -/
def opening (text : List Char) : List Char :=
  if text.contains '\n' then ['\n'] else []

/-- A string in a form. -/
def Form.write (text : List Char) : Form → List Char
  | .basic => '"' :: text.flatMap escaped ++ ['"']
  | .literal => '\'' :: text ++ ['\'']
  | .block => ['"', '"', '"'] ++ opening text ++ blockContent 0 text ++ ['"', '"', '"']
  | .literalBlock => ['\'', '\'', '\''] ++ opening text ++ text ++ ['\'', '\'', '\'']

/-- The text of a key. -/
def keyText (key : String) : List Char :=
  let text := key.toList
  if !text.isEmpty && text.all isBareKeyChar then text else (Form.ofKey text).write text

def Scalar.write : Scalar → List Char
  | .string content => (Form.ofValue content.toList).write content.toList
  | .number value => Nat.toDigits 10 value
  | .flag true => ['t', 'r', 'u', 'e']
  | .flag false => ['f', 'a', 'l', 's', 'e']

/-- A line that gives a key its value. -/
def entryLine (entry : String × Scalar) : List Char :=
  keyText entry.1 ++ [' ', '=', ' '] ++ entry.2.write ++ ['\n']

def Section.write (given : Section) : List Char :=
  '[' :: keyText given.name ++ [']', '\n'] ++ given.entries.flatMap entryLine

/-- A document of sections, with a blank line between them. -/
def sectionsText (sections : List Section) : String :=
  .ofList (['\n'].intercalate (sections.map Section.write))

/-- The format of a reader and a writer for which every document can be written. -/
def plainFormat : Format where
  read document :=
    match read? document with
    | some table => .ok table
    | none => .error ⟨"document cannot be read", "document cannot be read"⟩
  write sections := .ok (sectionsText sections)
  unfit _ := ⟨"value of another kind", "value of another kind"⟩

/-! ## A writer that counts

Quotes that stand in a row in a value can be counted in eight bits, with a check that
the count does not run over.  -/

/-- The greatest count. -/
def quoteLimit : Nat := 255

/-- Whether a character stands more than `limit` times in a row, after it stood
there `run` times. -/
def exceedsRun (c : Char) (limit : Nat) : Nat → List Char → Bool
  | run, [] => limit < run
  | run, first :: rest =>
    limit < run || exceedsRun c limit (if first = c then run + 1 else 0) rest

/-- Whether the quotes of a value can be counted. -/
def Scalar.isCountable : Scalar → Bool
  | .string content =>
    !exceedsRun '\'' quoteLimit 0 content.toList && !exceedsRun '"' quoteLimit 0 content.toList
  | _ => true

/-- The count ran over. -/
def overflow : Failure.Cause :=
  ⟨"attempt to add with overflow", "attempt to add with overflow"⟩

/-- The format of the same reader with a writer that counts. -/
def countingFormat : Format :=
  { plainFormat with
    write := fun sections =>
      if sections.all fun given => given.entries.all fun entry => entry.2.isCountable then
        plainFormat.write sections
      else .error overflow }

end SyntaxForest.Toml
