/-!
# Double precision numbers

A binary64 number is a sign and a 63 bit magnitude. Read as a natural number the magnitude grows
with the absolute value, so the order of two numbers that are no NaN is the order of two integers
(`key`), and both zeros have the same key. Rounding is exact arithmetic on natural numbers: a
quotient goes to the nearest representable number and a tie to the even significand.
-/

namespace Stepwise

/-- A binary64 number: its sign, and exponent and fraction read as one natural number. -/
structure Double where
  negative : Bool
  magnitude : Nat
  deriving DecidableEq, Repr, Inhabited

namespace Double

/-- The magnitude of infinity; larger magnitudes are NaN. -/
def infiniteMagnitude : Nat := 2047 * Nat.pow 2 52

def zero : Double := ⟨false, 0⟩
def infinity : Double := ⟨false, infiniteMagnitude⟩
def nan : Double := ⟨false, infiniteMagnitude + Nat.pow 2 51⟩

def isNaN (d : Double) : Bool := infiniteMagnitude < d.magnitude
def isFinite (d : Double) : Bool := d.magnitude < infiniteMagnitude
def isZero (d : Double) : Bool := d.magnitude == 0

def negate (d : Double) : Double := { d with negative := !d.negative }

/-- The place of a number on the line of all numbers that are no NaN. -/
def key (d : Double) : Int :=
  if d.negative then -(d.magnitude : Int) else d.magnitude

/-- The order of two numbers; a NaN is in no order with anything. -/
def compare? (a b : Double) : Option Ordering :=
  if a.isNaN || b.isNaN then none else some (compare a.key b.key)

/-- Equal as numbers: the zeros are equal, and a NaN equals nothing. -/
def same (a b : Double) : Bool :=
  a.compare? b == some .eq

/-! ## Rounding -/

/-- The quotient of two natural numbers rounded to the nearest one, a tie to the even one. -/
def roundHalfEven (num den : Nat) : Nat :=
  let q := num / den
  let r := num % den
  if 2 * r < den then q
  else if den < 2 * r then q + 1
  else if q % 2 = 0 then q else q + 1

/-- The quotient `num / (den * 2 ^ q)` as a numerator and a denominator. -/
def shifted (num den : Nat) (q : Int) : Nat × Nat :=
  if 0 ≤ q then (num, den * Nat.pow 2 q.toNat) else (num * Nat.pow 2 (-q).toNat, den)

/-- The exponent that gives `num / den` a significand of 53 bits, or the least exponent. -/
def exponentOf (num den : Nat) : Int :=
  let guess : Int := (num.log2 : Int) - (den.log2 : Int) - 52
  let (n, d) := shifted num den guess
  let q := if n / d < Nat.pow 2 52 then guess - 1 else guess
  max q (-1074)

/-- The magnitude nearest to `num / den`. -/
def magnitudeOf (num den : Nat) : Nat :=
  if num = 0 then 0
  else
    let q := exponentOf num den
    let (n, d) := shifted num den q
    min ((q + 1074).toNat * Nat.pow 2 52 + roundHalfEven n d) infiniteMagnitude

/-- The number nearest to a quotient. -/
def ofRatio (negative : Bool) (num den : Nat) : Double :=
  ⟨negative, magnitudeOf num den⟩

/-- The number nearest to an integer. -/
def ofInt (n : Int) : Double :=
  ofRatio (n < 0) n.natAbs 1

/-- Count of decimal digits, zero for zero. -/
def digitCount (n : Nat) : Nat :=
  if n = 0 then 0 else (Nat.toDigits 10 n).length

/-- The number nearest to `digits * 10 ^ exponent`. Far outside the range no power is computed. -/
def ofDecimal (negative : Bool) (digits : Nat) (exponent : Int) : Double :=
  let top := (digitCount digits : Int) + exponent
  if digits = 0 ∨ top < -330 then ⟨negative, 0⟩
  else if 310 < top then ⟨negative, infiniteMagnitude⟩
  else if 0 ≤ exponent then ofRatio negative (digits * Nat.pow 10 exponent.toNat) 1
  else ofRatio negative digits (Nat.pow 10 (-exponent).toNat)

/-! ## Exact value -/

/-- Significand `m` and exponent `q` of a finite number: its absolute value is `m * 2 ^ q`. -/
def parts (d : Double) : Nat × Int :=
  let e : Nat := d.magnitude / Nat.pow 2 52
  let f : Nat := d.magnitude % Nat.pow 2 52
  if e = 0 then (f, -1074) else (f + Nat.pow 2 52, (e : Int) - 1075)

/-- The absolute value of a finite number as a quotient. -/
def ratio (d : Double) : Nat × Nat :=
  let (m, q) := d.parts
  if 0 ≤ q then (m * Nat.pow 2 q.toNat, 1) else (m, Nat.pow 2 (-q).toNat)

/-- The rounded product of two finite numbers. -/
def mul (a b : Double) : Double :=
  let (an, ad) := a.ratio
  let (bn, bd) := b.ratio
  ofRatio (a.negative != b.negative) (an * bn) (ad * bd)

/-- The rounded quotient of two finite numbers, the second not zero. -/
def div (a b : Double) : Double :=
  let (an, ad) := a.ratio
  let (bn, bd) := b.ratio
  ofRatio (a.negative != b.negative) (an * bd) (ad * bn)

end Double

end Stepwise
