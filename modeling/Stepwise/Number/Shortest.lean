import Stepwise.Number.Double

/-!
# Shortest decimal digits

The fewest decimal digits that read back as the same number, and among those the nearest. The
two neighbours of the value on the grid of one digit, of two digits and so on are tried in turn;
seventeen digits are always enough.
-/

namespace Stepwise.Double

/-- A positive decimal `digits * 10 ^ exponent`. -/
structure Decimal where
  digits : Nat
  exponent : Int
  deriving DecidableEq, Repr

/-- Compare the quotient `num / den` with a power of ten: is it smaller? -/
def belowPower (num den : Nat) (k : Int) : Bool :=
  if 0 ≤ k then num < den * Nat.pow 10 k.toNat else num * Nat.pow 10 (-k).toNat < den

/-- The exponent `k` with `10 ^ k ≤ num / den < 10 ^ (k + 1)`. -/
def decimalExponent (num den : Nat) : Int :=
  let bits : Int := (num.log2 : Int) - (den.log2 : Int)
  let guess := (bits * 30103) / 100000
  if belowPower num den guess then guess - 1
  else if belowPower num den (guess + 1) then guess
  else guess + 1

/-- The quotient `num / (den * 10 ^ k)` as a numerator and a denominator. -/
def onGrid (num den : Nat) (k : Int) : Nat × Nat :=
  if 0 ≤ k then (num, den * Nat.pow 10 k.toNat) else (num * Nat.pow 10 (-k).toNat, den)

/-- The neighbour of the value on the grid of multiples of `10 ^ k` that reads back, if any; of
two the nearer one, and of two equally near ones the even one. -/
def gridPoint? (magnitude num den : Nat) (k : Int) : Option Nat :=
  let (n, d) := onGrid num den k
  let low := n / d
  let high := low + 1
  let hits := fun c => (ofDecimal false c k).magnitude == magnitude
  if hits low then
    if hits high then some (roundHalfEven n d) else some low
  else if hits high then some high else none

/-- Move zeros at the end of the digits into the exponent. -/
def Decimal.stripped : Nat → Decimal → Decimal
  | 0, d => d
  | fuel + 1, d =>
      if d.digits % 10 = 0 ∧ d.digits ≠ 0 then stripped fuel ⟨d.digits / 10, d.exponent + 1⟩ else d

/-- The shortest decimal of a finite positive magnitude. -/
def shortest (d : Double) : Decimal :=
  let (num, den) := d.ratio
  let k := decimalExponent num den
  let found := (List.range 17).findSome? fun (places : Nat) =>
    (gridPoint? d.magnitude num den (k - places)).map fun digits =>
      (⟨digits, k - places⟩ : Decimal)
  (found.getD ⟨0, 0⟩).stripped 20

/-! ## Notations -/

/-- Digits with a point: `digits * 10 ^ exponent` without an exponent, at least one digit on each
side of the point. -/
def Decimal.positional (d : Decimal) : String :=
  let ds := Nat.toDigits 10 d.digits
  let whole := (ds.length : Int) + d.exponent
  if 0 ≤ d.exponent then
    String.ofList (ds ++ List.replicate d.exponent.toNat '0') ++ ".0"
  else if 0 < whole then
    String.ofList (ds.take whole.toNat) ++ "." ++ String.ofList (ds.drop whole.toNat)
  else
    "0." ++ String.ofList (List.replicate (-whole).toNat '0' ++ ds)

/-- One digit, the point and the others, and the power of ten with its sign. -/
def Decimal.scientific (d : Decimal) : String :=
  let ds := Nat.toDigits 10 d.digits
  let power := (ds.length : Int) + d.exponent - 1
  let tail := if ds.length ≤ 1 then "" else "." ++ String.ofList (ds.drop 1)
  let sign := if 0 ≤ power then "+" else "-"
  String.ofList (ds.take 1) ++ tail ++ "e" ++ sign ++ toString power.natAbs

/-- The text of a finite number in documents: positional from `1e-5` up to but not including
`1e16`, with an exponent otherwise. -/
def text (d : Double) : String :=
  let sign := if d.negative then "-" else ""
  if d.isZero then sign ++ "0.0"
  else
    let s := d.shortest
    let power := (digitCount s.digits : Int) + s.exponent - 1
    sign ++ if -5 ≤ power ∧ power < 16 then s.positional else s.scientific

/-- The text of any number without an exponent, as error messages about documents show it. -/
def plainText (d : Double) : String :=
  let sign := if d.negative then "-" else ""
  if d.isNaN then "NaN"
  else if !d.isFinite then sign ++ "inf"
  else if d.isZero then sign ++ "0.0"
  else sign ++ d.shortest.positional

end Stepwise.Double
