import SyntaxForest.Settings
import SyntaxForest.Toml.Format

/-! Settings as TOML documents: a section `output` and one section for each
category.  The texts of the documents are left to a format. -/

namespace SyntaxForest

namespace Toml.Value

def flag? : Value → Option Bool
  | .boolean value => some value
  | _ => none

def size? : Value → Option UInt32
  | .integer value => if 0 ≤ value ∧ value < Int.pow 2 32 then some (.ofNat value.toNat) else none
  | _ => none

/-- A text, for which a date or a time may stand. -/
def text? : Value → Option String
  | .string content => some content
  | .dateTime value => some value.text
  | _ => none

/-- What is read of a value, or the default when it is missing. -/
def readOr {α : Type} (read : Value → Option α) (default : α) : Option Value → Option α
  | some value => read value
  | none => some default

end Toml.Value

open Toml (Value Scalar Section)

/-- Output settings, each field from a value that may be missing. -/
def OutputSettings.ofValues? (detailed includeExpressions fillNodes width height nodeWidth
    nodeHeight : Option Value) : Option OutputSettings := do
  let initial : OutputSettings := {}
  return {
    detailed := ← Value.readOr Value.flag? initial.detailed detailed
    includeExpressions := ← Value.readOr Value.flag? initial.includeExpressions includeExpressions
    fillNodes := ← Value.readOr Value.flag? initial.fillNodes fillNodes
    width := ← Value.readOr Value.size? initial.width width
    height := ← Value.readOr Value.size? initial.height height
    nodeWidth := ← Value.readOr Value.size? initial.nodeWidth nodeWidth
    nodeHeight := ← Value.readOr Value.size? initial.nodeHeight nodeHeight }

/-- Output settings from a table by name, or from an array by position.  Names that
are not known do not count, but positions past the last do. -/
def OutputSettings.ofToml? : Value → Option OutputSettings
  | .table entries =>
    ofValues? (entries.lookup "detailed") (entries.lookup "includeExpressions")
      (entries.lookup "fillNodes") (entries.lookup "width") (entries.lookup "height")
      (entries.lookup "nodeWidth") (entries.lookup "nodeHeight")
  | .array items =>
    if 7 < items.length then none
    else ofValues? items[0]? items[1]? items[2]? items[3]? items[4]? items[5]? items[6]?
  | _ => none

/-- The settings of a category from the entries of its table. -/
def CategorySettings.ofEntries? (entries : List (String × Value)) : Option CategorySettings := do
  return {
    visit := ← Value.readOr Value.flag? false (entries.lookup "visit")
    shape := ← Value.readOr (fun value => value.text?.map some) none (entries.lookup "shape")
    color := ← Value.readOr (fun value => value.text?.map some) none (entries.lookup "color") }

/-- The settings with what one entry of a document says.  An entry that is no table
says nothing, unless it is that of the output. -/
def Settings.reading? (settings : Settings) : String × Value → Option Settings
  | ("output", value) => (OutputSettings.ofToml? value).map fun output => { settings with output }
  | (name, .table entries) =>
    (CategorySettings.ofEntries? entries).map fun given =>
      { settings with categories := settings.categories.insert name given }
  | _ => some settings

/-- The settings that the table of a document holds. -/
def Settings.ofTable? (table : Toml.Table) : Option Settings :=
  table.foldlM reading? {}

/-- Reads settings from a document. -/
def Settings.ofToml (format : Toml.Format) (document : String) :
    Except Failure.Cause Settings :=
  match format.read document with
  | .error cause => .error cause
  | .ok table =>
    match ofTable? table with
    | some settings => .ok settings
    | none => .error (format.unfit table)

/-- The entries of the section of the output, in the order of their keys. -/
def OutputSettings.entries (output : OutputSettings) : List (String × Scalar) :=
  [("detailed", .flag output.detailed),
    ("fillNodes", .flag output.fillNodes),
    ("height", .number output.height.toNat),
    ("includeExpressions", .flag output.includeExpressions),
    ("nodeHeight", .number output.nodeHeight.toNat),
    ("nodeWidth", .number output.nodeWidth.toNat),
    ("width", .number output.width.toNat)]

/-- The entries of the section of a category, in the order of their keys. -/
def CategorySettings.entries (given : CategorySettings) : List (String × Scalar) :=
  (given.color.map fun color => ("color", Scalar.string color)).toList ++
    (given.shape.map fun shape => ("shape", Scalar.string shape)).toList ++
    [("visit", .flag given.visit)]

/-- The sections of settings, in the order of their names.  A category by the name
of the output's section takes its place. -/
def Settings.sections (settings : Settings) : List Section :=
  let named := settings.categories.entries.map fun entry => (entry.1, entry.2.entries)
  (NameMap.ofList (("output", settings.output.entries) :: named)).entries.map fun entry =>
    ⟨entry.1, entry.2⟩

/-- Writes settings as a document. -/
def Settings.toToml (format : Toml.Format) (settings : Settings) :
    Except Failure.Cause String :=
  format.write settings.sections

end SyntaxForest
