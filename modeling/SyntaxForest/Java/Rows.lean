import SyntaxForest.Java.ParseTree

/-! Parse trees as tables: one row to a node, in document order, each naming the
row of its parent. -/

namespace SyntaxForest.Java.ParseTree

/-- A node with the row of its parent. -/
structure Row where
  parent : Option Nat
  head : Head
deriving DecidableEq, Repr

/-- The parts of a node that a number stands for: 1 for named, 2 for an error, 4
for missing and 8 for holding an error, added together. -/
def Head.ofFlags (kind : String) (flags : Nat) (field : Option String)
    (startByte stopByte startRow stopRow : Nat) : Head where
  kind
  isNamed := flags.testBit 0
  isError := flags.testBit 1
  isMissing := flags.testBit 2
  hasError := flags.testBit 3
  field
  startByte
  stopByte
  startRow
  stopRow

/-- Hands a node, with the children gathered for its row, to the row of its
parent. -/
def gather (row : Row × Nat) (pending : Array (List ParseTree)) : Array (List ParseTree) :=
  let tree := node row.1.head (pending[row.2]?.getD [])
  match row.1.parent with
  | some parent => pending.modify parent (tree :: ·)
  | none => pending

/-- The tree of a table; the first row is its root.  Children follow their parent,
so going through the table from the end meets every child before its parent. -/
def ofRows? (rows : List Row) : Option ParseTree :=
  match rows with
  | [] => none
  | root :: rest =>
    let pending := (rest.zipIdx 1).foldr gather (Array.replicate rows.length [])
    some (node root.head (pending[0]?.getD []))

/-- A number, or nothing for a dash. -/
def Row.optionalNumber? (text : String) : Option (Option Nat) :=
  if text = "-" then some none else text.toNat?.map some

/-- Reads a row from a line of eight columns with tabs between them: the row of the
parent, the kind, the flags, the field, then bytes and rows.  A dash stands for a
parent or a field that is missing. -/
def Row.ofLine? (line : String) : Option Row :=
  match line.splitOn "\t" with
  | [parent, kind, flags, field, startByte, stopByte, startRow, stopRow] => do
    return {
      parent := ← Row.optionalNumber? parent
      head := .ofFlags kind (← flags.toNat?) (if field = "-" then none else some field)
        (← startByte.toNat?) (← stopByte.toNat?) (← startRow.toNat?) (← stopRow.toNat?) }
  | _ => none

/-- The tree of a table in a text, a row to a line. -/
def ofTable? (text : String) : Option ParseTree := do
  ofRows? (← ((text.splitOn "\n").filter (· ≠ "")).mapM Row.ofLine?)

end SyntaxForest.Java.ParseTree
