/-! Dates and times of day in TOML documents, with their canonical text. -/

namespace SyntaxForest.Toml

/-- A day of the calendar. -/
structure Date where
  year : Nat
  month : Nat
  day : Nat
deriving DecidableEq, Repr

/-- A time of day. -/
structure Time where
  hour : Nat
  minute : Nat
  second : Nat
  nanosecond : Nat
deriving DecidableEq, Repr

/-- How far a clock is ahead of universal time. -/
inductive Offset where
  | universal
  | minutes (ahead : Int)
deriving DecidableEq, Repr

/-- A day, a time of day, or both, then perhaps with an offset. -/
inductive DateTime where
  | day (date : Date)
  | clock (time : Time)
  | moment (date : Date) (time : Time) (offset : Option Offset)
deriving DecidableEq, Repr

/-- A number with zeros in front, up to a width. -/
def padded (width n : Nat) : String :=
  let digits := Nat.toDigits 10 n
  String.ofList (List.replicate (width - digits.length) '0' ++ digits)

def Date.text (date : Date) : String :=
  padded 4 date.year ++ "-" ++ padded 2 date.month ++ "-" ++ padded 2 date.day

/-- The decimal places of a second, without the zeros at their end. -/
def Time.fraction (time : Time) : String :=
  if time.nanosecond = 0 then ""
  else
    "." ++ String.ofList ((padded 9 time.nanosecond).toList.reverse.dropWhile (· = '0')).reverse

def Time.text (time : Time) : String :=
  padded 2 time.hour ++ ":" ++ padded 2 time.minute ++ ":" ++ padded 2 time.second ++ time.fraction

def Offset.text : Offset → String
  | .universal => "Z"
  | .minutes ahead =>
    (if ahead < 0 then "-" else "+") ++ padded 2 (ahead.natAbs / 60) ++ ":" ++
      padded 2 (ahead.natAbs % 60)

/-- The canonical text: capital letters, and no more decimal places than needed. -/
def DateTime.text : DateTime → String
  | .day date => date.text
  | .clock time => time.text
  | .moment date time offset => date.text ++ "T" ++ time.text ++ (offset.map Offset.text).getD ""

/-- How many days a month has. -/
def daysIn (year month : Nat) : Nat :=
  if month = 2 then
    if year % 4 = 0 ∧ (year % 100 ≠ 0 ∨ year % 400 = 0) then 29 else 28
  else if month = 4 ∨ month = 6 ∨ month = 9 ∨ month = 11 then 30
  else 31

/-- A number of a fixed count of digits. -/
def fixedDigits? : Nat → List Char → Option (Nat × List Char)
  | 0, text => some (0, text)
  | count + 1, c :: rest =>
    if c.isDigit then
      (fixedDigits? count rest).map fun (n, rest) =>
        ((c.toNat - '0'.toNat) * Nat.pow 10 count + n, rest)
    else none
  | _ + 1, [] => none

/-- A number of two digits between bounds. -/
def boundedPair? (low high : Nat) (text : List Char) : Option (Nat × List Char) :=
  (fixedDigits? 2 text).filter fun (n, _) => low ≤ n && n ≤ high

/-- What follows a character that has to stand first. -/
def expect? (c : Char) : List Char → Option (List Char)
  | d :: rest => if c = d then some rest else none
  | [] => none

/-- Reads a day that the calendar has. -/
def Date.read? (text : List Char) : Option (Date × List Char) := do
  let (year, text) ← fixedDigits? 4 text
  let text ← expect? '-' text
  let (month, text) ← boundedPair? 1 12 text
  let text ← expect? '-' text
  let (day, text) ← boundedPair? 1 (daysIn year month) text
  some (⟨year, month, day⟩, text)

/-- Reads the decimal places of a second; those past the ninth do not count. -/
def readFraction (text : List Char) : Nat × List Char :=
  match text with
  | '.' :: rest =>
    let digits := rest.takeWhile Char.isDigit
    if digits.isEmpty then (0, text)
    else
      let kept := (digits ++ List.replicate 9 '0').take 9
      (((fixedDigits? 9 kept).map Prod.fst).getD 0, rest.dropWhile Char.isDigit)
  | _ => (0, text)

/-- Reads a time of day.  A minute may have a leap second. -/
def Time.read? (text : List Char) : Option (Time × List Char) := do
  let (hour, text) ← boundedPair? 0 23 text
  let text ← expect? ':' text
  let (minute, text) ← boundedPair? 0 59 text
  let text ← expect? ':' text
  let (second, text) ← boundedPair? 0 60 text
  let (nanosecond, text) := readFraction text
  some (⟨hour, minute, second, nanosecond⟩, text)

/-- Reads an offset. -/
def Offset.read? : List Char → Option (Offset × List Char)
  | [] => none
  | c :: rest =>
    if c = 'Z' ∨ c = 'z' then some (.universal, rest)
    else if c = '+' ∨ c = '-' then do
      let (hour, rest) ← boundedPair? 0 23 rest
      let rest ← expect? ':' rest
      let (minute, rest) ← boundedPair? 0 59 rest
      let ahead : Int := hour * 60 + minute
      some (.minutes (if c = '-' then -ahead else ahead), rest)
    else none

/-- Reads a day, a time of day, or both with `T` or a space between them. -/
def DateTime.read? (text : List Char) : Option (DateTime × List Char) :=
  match Date.read? text with
  | some (date, rest) =>
    match rest with
    | c :: afterMark =>
      if c = 'T' ∨ c = 't' ∨ c = ' ' then
        match Time.read? afterMark with
        | some (time, afterTime) =>
          match Offset.read? afterTime with
          | some (offset, afterOffset) => some (.moment date time (some offset), afterOffset)
          | none => some (.moment date time none, afterTime)
        | none => some (.day date, rest)
      else some (.day date, rest)
    | [] => some (.day date, [])
  | none => (Time.read? text).map fun (time, rest) => (.clock time, rest)

end SyntaxForest.Toml
