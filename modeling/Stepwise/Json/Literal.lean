import Stepwise.Json
import Stepwise.Number.Reading

/-!
# Number literals

An integer literal that fits in 64 bits, signed when it has a minus and unsigned otherwise, is an
integer. Every other literal is a floating point number, computed from the leading digits that fit
in an unsigned 64 bit significand and one power of ten: the significand is rounded, then multiplied
or divided by the rounded power. The literal `-0` is the floating point `-0.0`, and a literal
beyond the range is refused.
-/

namespace Stepwise.Json

/-- Append digits to a significand as long as it fits in 64 bits; the digits left over. -/
def gather (significand : Nat) : List Char → Nat × List Char
  | [] => (significand, [])
  | c :: rest =>
      let next := significand * 10 + (c.toNat - '0'.toNat)
      if next < Nat.pow 2 64 then gather next rest else (significand, c :: rest)

/-- The rounded power of ten. -/
def tenTo (k : Nat) : Double :=
  Double.ofRatio false (Nat.pow 10 k) 1

/-- Divide by the 308th power of ten a number of times. -/
def lower : Nat → Double → Double
  | 0, d => d
  | n + 1, d => lower n (d.div (tenTo 308))

/-- A significand times a power of ten: no value beyond the range, zero far below it. -/
def scale (negative : Bool) (significand : Nat) (power : Int) : Option Double :=
  let d := Double.ofRatio false significand 1
  let signed := fun x : Double => { x with negative }
  if 0 ≤ power then
    if 308 < power then
      if significand = 0 then some (signed Double.zero) else none
    else
      let product := d.mul (tenTo power.toNat)
      if product.isFinite then some (signed product) else none
  else
    let places := (-power).toNat
    let rounds := (places - 1) / 308
    if 3 < rounds then some (signed Double.zero)
    else some (signed ((lower rounds d).div (tenTo (places - 308 * rounds))))

/-- The parts of a literal behind its sign. -/
structure Literal where
  whole : List Char
  fraction : Option (List Char)
  power : Option Int

/-- The number a literal denotes. -/
def Literal.number? (negative : Bool) (l : Literal) : Option Number :=
  let (high, unread) := gather 0 l.whole
  if unread.isEmpty && l.fraction.isNone && l.power.isNone then
    if negative then
      if high = 0 ∨ Nat.pow 2 63 < high then some (.float (Double.ofRatio true high 1))
      else some (.int (-(high : Int)))
    else some (.int high)
  else
    let fraction := l.fraction.getD []
    let (significand, ignored) := gather high fraction
    let places : Int := (unread.length : Int) - (fraction.length - ignored.length : Nat)
    (scale negative significand (places + l.power.getD 0)).map .float

/-- Read digits, at least one. -/
def readDigits (cs : List Char) : Option (List Char × List Char) :=
  match cs.takeWhile Char.isDigit with
  | [] => none
  | ds => some (ds, cs.dropWhile Char.isDigit)

/-- Read the part behind a point, if there is a point. -/
def readFraction : List Char → Option (Option (List Char) × List Char)
  | '.' :: rest => (readDigits rest).map fun (ds, rest) => (some ds, rest)
  | rest => some (none, rest)

/-- Read the power of ten, if there is one. -/
def readExponent : List Char → Option (Option Int × List Char)
  | [] => some (none, [])
  | c :: rest =>
      if c = 'e' ∨ c = 'E' then
        let (minus, rest) := Double.splitSign rest
        (readDigits rest).map fun (ds, rest) =>
          let n : Int := Double.digitsValue ds
          (some (if minus then -n else n), rest)
      else some (none, c :: rest)

/-- Split off a minus. -/
def splitMinus : List Char → Bool × List Char
  | '-' :: rest => (true, rest)
  | rest => (false, rest)

/-- Read a number literal behind its sign. A leading zero stands alone before the point. -/
def readLiteral (cs : List Char) : Option (Literal × List Char) := do
  let (whole, cs) ← readDigits cs
  if whole.head? = some '0' ∧ 1 < whole.length then none
  let (fraction, cs) ← readFraction cs
  let (power, cs) ← readExponent cs
  return (⟨whole, fraction, power⟩, cs)

/-- Read the number that a literal denotes. -/
def readNumber (cs : List Char) : Option (Number × List Char) := do
  let (negative, cs) := splitMinus cs
  let (literal, cs) ← readLiteral cs
  let number ← literal.number? negative
  return (number, cs)

end Stepwise.Json
