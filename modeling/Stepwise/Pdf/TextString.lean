import Stepwise.Pdf.Object
import Stepwise.Text.Units

/-!
# Text in PDF strings

The bytes of a string hold text in one of two ways: behind the mark `FE FF` as UTF-16, the high
byte of each unit first, and otherwise one character for each byte.
-/

namespace Stepwise.Pdf

/-- The two bytes of a unit. -/
def bytesOfUnit (u : Nat) : List UInt8 :=
  [UInt8.ofNat (u / 256), UInt8.ofNat (u % 256)]

/-- The units of bytes; an odd byte at the end is dropped. -/
def unitsOfBytes : List UInt8 → List Nat
  | high :: low :: rest => (high.toNat * 256 + low.toNat) :: unitsOfBytes rest
  | _ => []

/-- The text of a string. -/
def decodeText : List UInt8 → String
  | 0xFE :: 0xFF :: rest => String.ofList (Text.ofUnits (unitsOfBytes rest))
  | bytes => String.ofList (bytes.map fun b => Char.ofNat b.toNat)

def isAscii (text : List Char) : Bool :=
  text.all fun c => c.toNat < 128

/-- The string that holds a text. -/
def encodeText (text : String) : Object :=
  let cs := text.toList
  if isAscii cs then .bytes .literal (cs.map fun c => UInt8.ofNat c.toNat)
  else .bytes .hexadecimal (0xFE :: 0xFF :: (Text.units cs).flatMap bytesOfUnit)

end Stepwise.Pdf
