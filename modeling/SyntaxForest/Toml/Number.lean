/-! Numbers in TOML documents. -/

namespace SyntaxForest.Toml

/-- A number with a fraction or an exponent, as it is written: `digits * 10 ^
exponent` with a sign, or no finite number. -/
inductive Decimal where
  | finite (negative : Bool) (digits : Nat) (exponent : Int)
  | infinite (negative : Bool)
  | nan
deriving DecidableEq, Repr

/-- The least number that does not round to one with 53 significant binary digits
and an exponent below 1024. -/
def overflowBound : Nat := Nat.pow 2 1024 - Nat.pow 2 970

/-- Whether `digits * 10 ^ exponent` is `overflowBound` or more.  The bound has 309
digits, so only numbers of about that length are worked out. -/
def overflows (digits : Nat) (exponent : Int) : Bool :=
  if digits = 0 then false
  else
    let length : Int := (Nat.toDigits 10 digits).length + exponent
    if length > 310 then true
    else if length < 308 then false
    else if 0 ≤ exponent then overflowBound ≤ digits * Nat.pow 10 exponent.toNat
    else overflowBound * Nat.pow 10 (-exponent).toNat ≤ digits

/-- A number in a document. -/
inductive Number where
  | integer (value : Int)
  | decimal (value : Decimal)
deriving DecidableEq, Repr

/-- The value of a digit in bases up to 16. -/
def digitValue? (c : Char) : Option Nat :=
  if '0' ≤ c ∧ c ≤ '9' then some (c.toNat - '0'.toNat)
  else if 'a' ≤ c ∧ c ≤ 'f' then some (c.toNat - 'a'.toNat + 10)
  else if 'A' ≤ c ∧ c ≤ 'F' then some (c.toNat - 'A'.toNat + 10)
  else none

/-- The value of a digit of a base. -/
def digitOf? (base : Nat) (c : Char) : Option Nat :=
  (digitValue? c).filter (· < base)

/-- The digits of a base that follow, with single underscores between digits. -/
def moreDigits? (base : Nat) : List Char → Option (List Nat × List Char)
  | [] => some ([], [])
  | '_' :: c :: rest =>
    match digitOf? base c with
    | some digit => (moreDigits? base rest).map fun (digits, rest) => (digit :: digits, rest)
    | none => none
  | c :: rest =>
    match digitOf? base c with
    | some digit => (moreDigits? base rest).map fun (digits, rest) => (digit :: digits, rest)
    | none => if c = '_' then none else some ([], c :: rest)

/-- One or more digits of a base. -/
def digits? (base : Nat) : List Char → Option (List Nat × List Char)
  | [] => none
  | c :: rest =>
    match digitOf? base c with
    | some digit => (moreDigits? base rest).map fun (digits, rest) => (digit :: digits, rest)
    | none => none

/-- The number that digits of a base stand for. -/
def ofDigits (base : Nat) (digits : List Nat) : Nat :=
  digits.foldl (fun n digit => n * base + digit) 0

/-- The digits before a point or an exponent: a zero stands alone. -/
def wholeDigits? : List Char → Option (List Nat × List Char)
  | '0' :: rest => some ([0], rest)
  | text => digits? 10 text

/-- A sign, if there is one, and whether it is a minus. -/
def sign : List Char → Option Bool × List Char
  | '-' :: rest => (some true, rest)
  | '+' :: rest => (some false, rest)
  | text => (none, text)

/-- Reads an exponent after its mark. -/
def exponent? (text : List Char) : Option (Int × List Char) :=
  let (minus, text) := sign text
  (digits? 10 text).map fun (digits, rest) =>
    let size : Int := ofDigits 10 digits
    (if minus = some true then -size else size, rest)

/-- An exponent with its mark; none counts as zero. -/
def optionalExponent? : List Char → Option (Int × List Char)
  | c :: rest => if c = 'e' ∨ c = 'E' then exponent? rest else some (0, c :: rest)
  | [] => some (0, [])

/-- A decimal that does not overflow upwards. -/
def decimal? (negative : Bool) (digits : Nat) (exponent : Int) : Option Number :=
  if !negative && overflows digits exponent then none
  else some (.decimal (.finite negative digits exponent))

/-- An integer of 64 bits. -/
def integer? (value : Int) : Option Number :=
  if -Int.pow 2 63 ≤ value ∧ value < Int.pow 2 63 then some (.integer value) else none

/-- Reads an integer in another base after its mark. -/
def based? (base : Nat) (text : List Char) : Option (Number × List Char) := do
  let (digits, rest) ← digits? base text
  let number ← integer? (ofDigits base digits)
  some (number, rest)

/-- Reads a number after its sign. -/
def unsigned? (negative : Bool) (text : List Char) : Option (Number × List Char) :=
  match text with
  | 'i' :: 'n' :: 'f' :: rest => some (.decimal (.infinite negative), rest)
  | 'n' :: 'a' :: 'n' :: rest => some (.decimal .nan, rest)
  | _ => do
    let (whole, rest) ← wholeDigits? text
    match rest with
    | '.' :: afterPoint => do
      let (places, rest) ← digits? 10 afterPoint
      let (exponent, rest) ← optionalExponent? rest
      let number ← decimal? negative (ofDigits 10 (whole ++ places)) (exponent - places.length)
      some (number, rest)
    | c :: afterMark =>
      if c = 'e' ∨ c = 'E' then do
        let (exponent, rest) ← exponent? afterMark
        let number ← decimal? negative (ofDigits 10 whole) exponent
        some (number, rest)
      else do
        let size : Int := ofDigits 10 whole
        let number ← integer? (if negative then -size else size)
        some (number, rest)
    | [] => do
      let size : Int := ofDigits 10 whole
      let number ← integer? (if negative then -size else size)
      some (number, [])

/-- Reads a number. -/
def Number.read? (text : List Char) : Option (Number × List Char) :=
  match text with
  | '0' :: 'x' :: rest => based? 16 rest
  | '0' :: 'o' :: rest => based? 8 rest
  | '0' :: 'b' :: rest => based? 2 rest
  | _ =>
    let (minus, rest) := sign text
    unsigned? (minus = some true) rest

end SyntaxForest.Toml
