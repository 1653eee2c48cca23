/-! Quotients of natural numbers as they are written with two decimals.

A quotient is first rounded to a binary number with 53 significant digits, and
that number is then rounded to hundredths.  Both roundings go to the nearest
candidate, and from halfway to the even one. -/

namespace SyntaxForest.Text

/-- `num / den` rounded to the nearest natural number, from halfway to the even
one. -/
def roundDiv (num den : Nat) : Nat :=
  let low := num / den
  let twice := 2 * (num % den)
  if twice < den then low
  else if den < twice then low + 1
  else if low % 2 = 0 then low else low + 1

/-- A binary fraction `mantissa / 2 ^ places`. -/
structure Dyadic where
  mantissa : Nat
  places : Nat
deriving DecidableEq, Repr

/-- How many binary places bring `num / den` into the range from `2 ^ 52` to
`2 ^ 53`, for operands below `2 ^ 32`. -/
def placesFor (num den : Nat) : Nat :=
  let guess := 52 + den.log2 - num.log2
  if num * Nat.pow 2 guess < den * Nat.pow 2 52 then guess + 1 else guess

/-- `num / den` with 53 significant binary digits, for operands below `2 ^ 32`. -/
def Dyadic.ofQuotient (num den : Nat) : Dyadic :=
  if num = 0 then ⟨0, 0⟩
  else
    let places := placesFor num den
    ⟨roundDiv (num * Nat.pow 2 places) den, places⟩

/-- The nearest number of hundredths. -/
def Dyadic.hundredths (x : Dyadic) : Nat :=
  roundDiv (x.mantissa * 100) (Nat.pow 2 x.places)

/-- A number of hundredths as decimal digits with a point before the last two. -/
def twoDecimals (hundredths : Nat) : String :=
  let cents := hundredths % 100
  toString (hundredths / 100) ++ "." ++ (if cents < 10 then "0" else "") ++ toString cents

/-- `num / den` with two decimals. -/
def quotientText (num den : Nat) : String :=
  twoDecimals (Dyadic.ofQuotient num den).hundredths

end SyntaxForest.Text
