import SyntaxForest.Failure
import SyntaxForest.Toml.DateTimeTable

/-! The texts of TOML documents, as far as settings have to do with them.  Whoever
reads and writes such texts is given by a `Format`; what is written are documents of
sections with plain values, and what is read are tables of any values. -/

namespace SyntaxForest.Toml

/-- A plain value. -/
inductive Scalar where
  | string (text : String)
  | number (value : Nat)
  | flag (value : Bool)
deriving DecidableEq, Repr

/-- A table under a header of its own. -/
structure Section where
  name : String
  entries : List (String × Scalar)
deriving DecidableEq, Repr

/-- The table of a document, or one inside it. -/
abbrev Table := List (String × Value)

/-- Who reads and writes the texts of documents.  Both can fail, and `unfit` tells what
is objected to in a table that has a value of a kind that is not asked for. -/
structure Format where
  read : String → Except Failure.Cause Table
  write : List Section → Except Failure.Cause String
  unfit : Table → Failure.Cause

/-! ## What is asked of a format -/

/-- The value that a plain value is read as. -/
def Scalar.toValue : Scalar → Value
  | .string content => .string content
  | .number value => .integer value
  | .flag value => .boolean value

/-- Whether a plain value can be read: numbers have 64 bits. -/
def Scalar.Fits : Scalar → Prop
  | .number value => (value : Int) < Int.pow 2 63
  | _ => True

/-- The entry of a document that a section is read as. -/
def Section.toValue (given : Section) : String × Value :=
  (given.name, .table (given.entries.map fun entry => (entry.1, entry.2.toValue)))

/-- A section that can be read: its keys increase, its numbers have 64 bits, and it does
not stand for a date or a time. -/
structure Section.Readable (given : Section) : Prop where
  increasing : (given.entries.map Prod.fst).Pairwise (· < ·)
  fits : ∀ entry ∈ given.entries, entry.2.Fits
  plain : ∀ entry ∈ given.entries.head?, entry.1 ≠ dateTimeKey

/-- A format that writes every document of readable sections, in increasing order of
their names, and reads back what it wrote. -/
structure Format.Faithful (format : Format) : Prop where
  writes {sections : List Section} (hnames : (sections.map Section.name).Pairwise (· < ·))
    (h : ∀ given ∈ sections, given.Readable) : ∃ document, format.write sections = .ok document
  reads_back {sections : List Section} (hnames : (sections.map Section.name).Pairwise (· < ·))
    (h : ∀ given ∈ sections, given.Readable) {document : String}
    (hwrite : format.write sections = .ok document) :
    format.read document = .ok (sections.map Section.toValue)

end SyntaxForest.Toml
