import SyntaxForest.Toml.Table

/-! Tables that stand for dates and times.  A table below the top of a document
whose first key is `dateTimeKey` stands for what the text under that key says, and
its other keys do not count. -/

namespace SyntaxForest.Toml

/-- The first key of a table that stands for a date or a time. -/
def dateTimeKey : String := "$__toml_private_datetime"

/-- The date or time that a whole text says. -/
def DateTime.ofText? (text : String) : Option DateTime :=
  match DateTime.read? text.toList with
  | some (said, []) => some said
  | _ => none

/-- The date or time that a value says as a text. -/
def Value.saidDateTime? : Value → Option Value
  | .string content => (DateTime.ofText? content).map .dateTime
  | _ => none

mutual

/-- The value with dates and times in place of the tables that stand for them;
nothing when such a table says none. -/
def Value.settle? : Value → Option Value
  | .array items => (Value.settleItems? items).map .array
  | .table [] => some (.table [])
  | .table ((key, first) :: rest) =>
    if key = dateTimeKey then first.saidDateTime?
    else do
      let first ← first.settle?
      let rest ← Value.settleEntries? rest
      some (.table ((key, first) :: rest))
  | value => some value

/-- The items of an array. -/
def Value.settleItems? : List Value → Option (List Value)
  | [] => some []
  | item :: rest => do
    let item ← item.settle?
    let rest ← Value.settleItems? rest
    some (item :: rest)

/-- The entries of a table, whatever its first key is. -/
def Value.settleEntries? : List (String × Value) → Option (List (String × Value))
  | [] => some []
  | (key, value) :: rest => do
    let value ← value.settle?
    let rest ← Value.settleEntries? rest
    some ((key, value) :: rest)

end

end SyntaxForest.Toml
