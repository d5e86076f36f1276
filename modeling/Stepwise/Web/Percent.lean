import Stepwise.Mail.Encoding

/-!
# Percent encoding

Characters that cannot stand in a part of an address are written as bytes behind percent signs.
Which characters these are depends on the part; beyond ASCII it is all of them.
-/

namespace Stepwise.Web

/-- A control character, or one beyond ASCII. -/
def inControlSet (c : Char) : Bool := c < ' ' || c > '~'

def inFragmentSet (c : Char) : Bool := inControlSet c || " \"<>\x60".toList.contains c

def inQuerySet (c : Char) : Bool := inControlSet c || " \"#<>".toList.contains c

def inSpecialQuerySet (c : Char) : Bool := inQuerySet c || c == '\''

def inPathSet (c : Char) : Bool := inQuerySet c || "?^\x60\x7b\x7d".toList.contains c

def inUserSet (c : Char) : Bool := inPathSet c || "/:;=@[\\]|".toList.contains c

/-- A text with the characters of a set encoded. -/
def percentEncode (inSet : Char → Bool) (cs : List Char) : List Char :=
  cs.flatMap fun c =>
    if inSet c then (String.ofList [c]).toUTF8.toList.flatMap (Mail.escapedByte '%') else [c]

/-- The value of a digit in base 16. -/
def hexValue? (b : UInt8) : Option UInt8 :=
  if 48 ≤ b && b ≤ 57 then some (b - 48)
  else if 65 ≤ b && b ≤ 70 then some (b - 55)
  else if 97 ≤ b && b ≤ 102 then some (b - 87)
  else none

/-- The bytes behind percent signs in place of the signs and digits. -/
def percentDecode : List UInt8 → List UInt8
  | 37 :: a :: b :: rest =>
      match hexValue? a, hexValue? b with
      | some high, some low => (high * 16 + low) :: percentDecode rest
      | _, _ => 37 :: percentDecode (a :: b :: rest)
  | b :: rest => b :: percentDecode rest
  | [] => []

end Stepwise.Web
