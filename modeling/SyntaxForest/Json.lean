/-! JSON values and their text over several lines: two spaces to a level, a
member to a line, and only quotes, backslashes and control characters escaped. -/

namespace SyntaxForest

/-- A JSON value.  The members of an object keep their order. -/
inductive Json where
  | bool (value : Bool)
  | number (value : Nat)
  | string (value : String)
  | array (items : List Json)
  | object (members : List (String × Json))

namespace Json

/-- The hexadecimal digit of a number below 16. -/
def hexDigit (n : Nat) : Char :=
  if n < 10 then Char.ofNat ('0'.toNat + n) else Char.ofNat ('a'.toNat + (n - 10))

/-- The characters that stand for one character inside quotes. -/
def escapeChar (c : Char) : List Char :=
  match c with
  | '"' => ['\\', '"']
  | '\\' => ['\\', '\\']
  | '\x08' => ['\\', 'b']
  | '\t' => ['\\', 't']
  | '\n' => ['\\', 'n']
  | '\x0c' => ['\\', 'f']
  | '\r' => ['\\', 'r']
  | c =>
    if c.toNat < 0x20 then ['\\', 'u', '0', '0', hexDigit (c.toNat / 16), hexDigit (c.toNat % 16)]
    else [c]

/-- A text in quotes. -/
def quoted (text : String) : List Char :=
  '"' :: text.toList.flatMap escapeChar ++ ['"']

/-- A line break and the indentation of a level. -/
def newline (level : Nat) : List Char :=
  '\n' :: List.replicate (2 * level) ' '

mutual

/-- The text of a value whose first line stands at a level. -/
def chars (level : Nat) : Json → List Char
  | .bool true => "true".toList
  | .bool false => "false".toList
  | .number value => Nat.toDigits 10 value
  | .string value => quoted value
  | .array [] => ['[', ']']
  | .array (item :: items) =>
    '[' :: newline (level + 1) ++ chars (level + 1) item ++ itemsChars (level + 1) items ++
      newline level ++ [']']
  | .object [] => ['\x7b', '\x7d']
  | .object (member :: members) =>
    '\x7b' :: newline (level + 1) ++ memberChars (level + 1) member ++
      membersChars (level + 1) members ++ newline level ++ ['\x7d']

/-- The text of a member. -/
def memberChars (level : Nat) : String × Json → List Char
  | (key, value) => quoted key ++ [':', ' '] ++ chars level value

/-- The text of the items after the first. -/
def itemsChars (level : Nat) : List Json → List Char
  | [] => []
  | item :: items => ',' :: newline level ++ chars level item ++ itemsChars level items

/-- The text of the members after the first. -/
def membersChars (level : Nat) : List (String × Json) → List Char
  | [] => []
  | member :: members =>
    ',' :: newline level ++ memberChars level member ++ membersChars level members

end

/-- The text of a value. -/
def pretty (value : Json) : String :=
  String.ofList (value.chars 0)

end Json

end SyntaxForest
