import SyntaxForest.Toml.DateTimeTable
import SyntaxForest.Toml.Table
import SyntaxForest.Toml.Text

/-! Reading TOML documents: values, lines, and the table of a whole document. -/

namespace SyntaxForest.Toml

/-- Reads a key and the equals sign after it; the last part of the key comes
apart from the others. -/
def assignment? (text : List Char) : Option ((List String × String) × List Char) := do
  let (parts, rest) ← key? text
  let last ← parts.getLast?
  let rest ← expect? '=' rest
  some ((parts.dropLast, last), skipSpace rest)

/-- Reads the items of an array after its bracket.  Every unit of `fuel` pays for
one item. -/
def items? (item : List Char → Option (Value × List Char)) :
    Nat → List Char → Option (List Value × List Char)
  | 0, _ => none
  | fuel + 1, text => do
    match ← skipLines? (text.length + 1) text with
    | ']' :: rest => some ([], rest)
    | text => do
      let (value, rest) ← item text
      match ← skipLines? (rest.length + 1) rest with
      | ',' :: rest =>
        let (values, rest) ← items? item fuel rest
        some (value :: values, rest)
      | ']' :: rest => some ([value], rest)
      | _ => none

/-- Reads the pairs of an inline table, of which there is at least one, into its
entries.  Every unit of `fuel` pays for one pair. -/
def pairs? (item : List Char → Option (Value × List Char)) (entries : Entries) :
    Nat → List Char → Option (Entries × List Char)
  | 0, _ => none
  | fuel + 1, text => do
    let ((path, key), rest) ← assignment? text
    let (value, rest) ← item rest
    let entries ← entries.assign path key value .header
    match skipSpace rest with
    | ',' :: rest => pairs? item entries fuel rest
    | '\x7d' :: rest => some (entries, rest)
    | _ => none

/-- Reads an array after its bracket. -/
def array? (item : List Char → Option (Value × List Char)) (text : List Char) :
    Option (Value × List Char) :=
  (items? item (text.length + 1) text).map fun (values, rest) => (.array values, rest)

/-- Reads an inline table after its brace. -/
def inlineTable? (item : List Char → Option (Value × List Char)) (text : List Char) :
    Option (Value × List Char) :=
  match skipSpace text with
  | '\x7d' :: rest => some (.table [], rest)
  | _ =>
    (pairs? item [] (text.length + 1) text).map fun (entries, rest) =>
      (.table entries.toValues, rest)

/-- Reads a value that is neither an array nor a table. -/
def scalar? (text : List Char) : Option (Value × List Char) :=
  match text with
  | '"' :: _ | '\'' :: _ => (string? text).map fun (content, rest) => (.string content, rest)
  | 't' :: 'r' :: 'u' :: 'e' :: rest => some (.boolean true, rest)
  | 'f' :: 'a' :: 'l' :: 's' :: 'e' :: rest => some (.boolean false, rest)
  | _ =>
    match DateTime.read? text with
    | some (moment, rest) => some (.dateTime moment, rest)
    | none => (Number.read? text).map fun (number, rest) => (number.toValue, rest)

/-- Reads a value; arrays and tables may be nested in it `depth` times. -/
def value? : Nat → List Char → Option (Value × List Char)
  | 0, text =>
    match text with
    | '[' :: _ | '\x7b' :: _ => none
    | _ => scalar? text
  | depth + 1, text =>
    match text with
    | '[' :: rest => array? (value? depth) rest
    | '\x7b' :: rest => inlineTable? (value? depth) rest
    | _ => scalar? text

/-- What a line of a document says. -/
inductive Line where
  | blank
  | header (path : List String) (key : String)
  | repeatedHeader (path : List String) (key : String)
  | assignment (path : List String) (key : String) (value : Value)

/-- Reads the key of a header. -/
def headerKey? (text : List Char) : Option ((List String × String) × List Char) := do
  let (parts, rest) ← key? text
  let last ← parts.getLast?
  some ((parts.dropLast, last), rest)

/-- Reads what a line says, not its end. -/
def statement? (text : List Char) : Option (Line × List Char) :=
  match text with
  | [] => some (.blank, [])
  | '#' :: _ | '\n' :: _ | '\r' :: _ => some (.blank, text)
  | '[' :: '[' :: rest => do
    let ((path, key), rest) ← headerKey? rest
    let rest ← expect? ']' rest
    let rest ← expect? ']' rest
    some (.repeatedHeader path key, rest)
  | '[' :: rest => do
    let ((path, key), rest) ← headerKey? rest
    let rest ← expect? ']' rest
    some (.header path key, rest)
  | _ => do
    let ((path, key), rest) ← assignment? text
    let (value, rest) ← value? (depthLimit - 1) rest
    some (.assignment path key value, rest)

/-- The tables read so far, and the path of the one that assignments go to. -/
structure Progress where
  root : Entries := []
  current : List String := []

/-- The progress after a line. -/
def Progress.after? (progress : Progress) : Line → Option Progress
  | .blank => some progress
  | .header path key =>
    (progress.root.openTable path key).map fun root => ⟨root, path ++ [key]⟩
  | .repeatedHeader path key =>
    (progress.root.openElement path key).map fun root => ⟨root, path ++ [key]⟩
  | .assignment path key value =>
    (Entries.update .passage (fun origin table => table.assign path key value origin)
      progress.current .header progress.root).map fun root => { progress with root }

/-- Reads the lines of a document.  Every unit of `fuel` pays for one line. -/
def lines? : Nat → Progress → List Char → Option Progress
  | 0, _, _ => none
  | fuel + 1, progress, text => do
    let (line, rest) ← statement? (skipSpace text)
    let progress ← progress.after? line
    let rest ← lineEnd? rest
    if rest.isEmpty then some progress else lines? fuel progress rest

/-- The text of a document without the mark that may stand before it. -/
def dropMark : List Char → List Char
  | '\ufeff' :: rest => rest
  | text => text

/-- Reads a document. -/
def read? (document : String) : Option (List (String × Value)) := do
  let text := dropMark document.toList
  let progress ← lines? (text.length + 1) {} text
  Value.settleEntries? (Entries.toValues progress.root)

end SyntaxForest.Toml
