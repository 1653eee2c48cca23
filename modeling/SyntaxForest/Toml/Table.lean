import SyntaxForest.Toml.DateTime
import SyntaxForest.Toml.Number

/-! Values of TOML documents, and tables while a document is read.  A table comes into
being by a header of its own, on the way to another header's table, or by a dotted key,
and how it came into being decides what may still be added to it. -/

namespace SyntaxForest.Toml

/-- A value.  The keys of a table are distinct. -/
inductive Value where
  | string (text : String)
  | integer (value : Int)
  | decimal (value : Decimal)
  | boolean (value : Bool)
  | dateTime (value : DateTime)
  | array (items : List Value)
  | table (entries : List (String × Value))

/-- The value of a number. -/
def Number.toValue : Number → Value
  | .integer value => .integer value
  | .decimal value => .decimal value

/-- How a table came into being: by a header of its own, on the way to the table of
another header, or by a dotted key. -/
inductive Origin where
  | header
  | passage
  | dotted
deriving DecidableEq, Repr

/-- What a key of a growing table stands for: a value, which is complete, a table, or
the tables of repeated headers, each by its entries. -/
inductive Entry where
  | value (value : Value)
  | table (origin : Origin) (entries : List (String × Entry))
  | tables (elements : List (List (String × Entry)))

/-- The entries of a growing table. -/
abbrev Entries := List (String × Entry)

namespace Entries

/-- The entries with the entry of a key replaced. -/
def replace (entries : Entries) (key : String) (entry : Entry) : Entries :=
  entries.map fun other => if other.1 = key then (key, entry) else other

/-- Changes the table at the end of a path.  Tables that the path lacks come into
being, and of repeated tables the last is meant.  A dotted key may not enter the
table of a header. -/
def update (via : Origin) (change : Origin → Entries → Option Entries) :
    List String → Origin → Entries → Option Entries
  | [], origin, entries => change origin entries
  | key :: path, _, entries =>
    match entries.lookup key with
    | none => do
      let inner ← update via change path via []
      some (entries ++ [(key, .table via inner)])
    | some (.value _) => none
    | some (.tables elements) => do
      let inner ← update via change path .header (elements.getLast?.getD [])
      some (replace entries key (.tables (elements.dropLast ++ [inner])))
    | some (.table origin inner) =>
      if via = .dotted ∧ origin = .header then none
      else do
        let inner ← update via change path origin inner
        some (replace entries key (.table origin inner))

/-- Adds a key that is not there yet. -/
def addNew (key : String) (entry : Entry) (entries : Entries) : Option Entries :=
  if (entries.lookup key).isSome then none else some (entries ++ [(key, entry)])

/-- Sets the value of a key, which may be dotted.  A table reached by dots has to
come from dots. -/
def assign (path : List String) (key : String) (value : Value) (origin : Origin)
    (entries : Entries) : Option Entries :=
  update .dotted
    (fun reached inner =>
      if path ≠ [] ∧ reached ≠ .dotted then none else addNew key (.value value) inner)
    path origin entries

/-- The entries with the entry of a key set anew, after all others. -/
def moveLast (entries : Entries) (key : String) (entry : Entry) : Entries :=
  (entries.filter fun other => other.1 ≠ key) ++ [(key, entry)]

/-- Opens the table of a header.  A table that was only passed on the way to
another may still have its own header, and then stands where that comes. -/
def openTable (path : List String) (key : String) (root : Entries) : Option Entries :=
  update .passage
    (fun _ parent =>
      match parent.lookup key with
      | none => some (parent ++ [(key, .table .header [])])
      | some (.table .passage inner) => some (moveLast parent key (.table .header inner))
      | some _ => none)
    path .header root

/-- Opens one more table of a repeated header. -/
def openElement (path : List String) (key : String) (root : Entries) : Option Entries :=
  update .passage
    (fun _ parent =>
      match parent.lookup key with
      | none => some (parent ++ [(key, .tables [[]])])
      | some (.tables elements) => some (replace parent key (.tables (elements ++ [[]])))
      | some _ => none)
    path .header root

end Entries

mutual

/-- The value of an entry. -/
def Entry.toValue : Entry → Value
  | .value value => value
  | .table _ entries => .table (Entries.toValues entries)
  | .tables elements => .array (Entries.toTables elements)

/-- The values of entries. -/
def Entries.toValues : Entries → List (String × Value)
  | [] => []
  | (key, entry) :: rest => (key, entry.toValue) :: Entries.toValues rest

/-- The tables of repeated headers. -/
def Entries.toTables : List Entries → List Value
  | [] => []
  | entries :: rest => .table (Entries.toValues entries) :: Entries.toTables rest

end

end SyntaxForest.Toml
