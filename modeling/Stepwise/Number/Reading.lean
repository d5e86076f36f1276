import Stepwise.Number.Double

/-!
# Numbers in plain text

A text reads as a number when it is an optional sign followed by digits with an optional point
and power of ten, or by a name of infinity or NaN in any case. The number is the nearest one, so a
text beyond the range reads as infinity.
-/

namespace Stepwise.Double

/-- The value of a run of decimal digits. -/
def digitsValue (ds : List Char) : Nat :=
  ds.foldl (fun n c => n * 10 + (c.toNat - '0'.toNat)) 0

/-- A sign in front, if any: whether it is a minus, and the rest. -/
def splitSign : List Char → Bool × List Char
  | '-' :: rest => (true, rest)
  | '+' :: rest => (false, rest)
  | rest => (false, rest)

/-- The power of ten after the letter `e`: digits with an optional sign and nothing after them. -/
def readPower (cs : List Char) : Option Int :=
  let (minus, ds) := splitSign cs
  if ds.isEmpty || !ds.all Char.isDigit then none
  else some (if minus then -(digitsValue ds : Int) else digitsValue ds)

/-- The digits behind a point, if there is one, and the rest. -/
def splitFraction : List Char → List Char × List Char
  | '.' :: rest => (rest.takeWhile Char.isDigit, rest.dropWhile Char.isDigit)
  | rest => ([], rest)

/-- An unsigned decimal: digits, a point among them at will, and an optional power of ten. -/
def readUnsigned (negative : Bool) (cs : List Char) : Option Double :=
  let whole := cs.takeWhile Char.isDigit
  let (fraction, rest) := splitFraction (cs.dropWhile Char.isDigit)
  if whole.isEmpty && fraction.isEmpty then none
  else
    let number := fun power : Int =>
      ofDecimal negative (digitsValue (whole ++ fraction)) (power - fraction.length)
    match rest with
    | [] => some (number 0)
    | c :: power =>
        if c = 'e' ∨ c = 'E' then (readPower power).map number else none

/-- The number a text denotes, without white space around it. -/
def ofText? (text : String) : Option Double :=
  let (minus, rest) := splitSign text.toList
  let word := String.ofList (rest.map Char.toLower)
  if word = "inf" ∨ word = "infinity" then some { infinity with negative := minus }
  else if word = "nan" then some nan
  else readUnsigned minus rest

end Stepwise.Double
