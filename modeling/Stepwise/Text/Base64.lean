/-!
# Base64

Bytes as letters, digits and two signs. Three bytes become four characters of six bits each; what
is missing in the last group is padded.
-/

namespace Stepwise.Text

/-- The characters for the values of six bits. -/
def base64Alphabet : List Char :=
  "ABCDEFGHIJKLMNOPQRSTUVWXYZabcdefghijklmnopqrstuvwxyz0123456789+/".toList

/-- The character for six bits at a position in a group of bits. -/
def base64Digit (group shift : Nat) : Char :=
  base64Alphabet.getD (group / Nat.pow 2 shift % 64) 'A'

/-- The characters of some bytes. -/
def base64 : List UInt8 → List Char
  | [] => []
  | [a] =>
      let group := a.toNat * Nat.pow 2 16
      [base64Digit group 18, base64Digit group 12, '=', '=']
  | [a, b] =>
      let group := a.toNat * Nat.pow 2 16 + b.toNat * Nat.pow 2 8
      [base64Digit group 18, base64Digit group 12, base64Digit group 6, '=']
  | a :: b :: c :: rest =>
      let group := a.toNat * Nat.pow 2 16 + b.toNat * Nat.pow 2 8 + c.toNat
      base64Digit group 18 :: base64Digit group 12 :: base64Digit group 6 ::
        base64Digit group 0 :: base64 rest

end Stepwise.Text
