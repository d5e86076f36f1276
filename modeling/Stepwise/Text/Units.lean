/-!
# UTF-16

A text as code units of sixteen bits: one unit for a character below 0x10000, a pair of surrogates
for any other. Reading units back replaces a surrogate that is not part of a pair.
-/

namespace Stepwise.Text

/-- The units of a character. -/
def unitsOfChar (c : Char) : List Nat :=
  let code := c.toNat
  if code < 0x10000 then [code]
  else [0xD800 + (code - 0x10000) / 0x400, 0xDC00 + (code - 0x10000) % 0x400]

/-- The units of a text. -/
def units (cs : List Char) : List Nat :=
  cs.flatMap unitsOfChar

def isLeadUnit (u : Nat) : Bool := 0xD800 ≤ u && u < 0xDC00
def isTrailUnit (u : Nat) : Bool := 0xDC00 ≤ u && u < 0xE000

/-- The character of a pair of surrogates. -/
def charOfPair (lead trail : Nat) : Char :=
  Char.ofNat (0x10000 + (lead - 0xD800) * 0x400 + (trail - 0xDC00))

/-- The character of a unit that stands alone. -/
def charOfUnit (u : Nat) : Char :=
  if isLeadUnit u || isTrailUnit u then '\ufffd' else Char.ofNat u

/-- The characters of units. -/
def ofUnits : List Nat → List Char
  | [] => []
  | [u] => [charOfUnit u]
  | u :: v :: rest =>
      if isLeadUnit u && isTrailUnit v then charOfPair u v :: ofUnits rest
      else charOfUnit u :: ofUnits (v :: rest)

end Stepwise.Text
