import Stepwise.Text.Base64

/-!
# Encodings of message bodies

A body is sent as it is when it is ASCII and has no long lines. Otherwise it is written in quoted
printable form when at most a third of its bytes need it, and else in base64. Both forms have
lines of bounded length.
-/

namespace Stepwise.Mail

/-- How a body is written. -/
inductive Encoding where
  | plain
  | quotedPrintable
  | base64
  deriving DecidableEq

/-- The name of an encoding in a header. -/
def Encoding.name : Encoding → String
  | plain => "7bit"
  | quotedPrintable => "quoted-printable"
  | base64 => "base64"

/-- The greatest length of a line of a body that is sent as it is. -/
def maxPlainLine : Nat := 998

/-- The greatest length of a line of an encoded body. -/
def maxEncodedLine : Nat := 76

/-- A byte that quoted printable form leaves alone, up to the sign it escapes with. -/
def isPrintableByte (b : UInt8) : Bool := b == 9 || (32 ≤ b && b ≤ 126)

/-- The lengths of the lines of a body. -/
def lineLengths (count : Nat) : List UInt8 → List Nat
  | [] => [count]
  | b :: rest => if b == 10 then count :: lineLengths 0 rest else lineLengths (count + 1) rest

/-- The encoding for a body. -/
def Encoding.ofBody (body : List UInt8) : Encoding :=
  if body.all (· < 128) && (lineLengths 0 body).all (· ≤ maxPlainLine) then plain
  else if (body.countP fun b => !isPrintableByte b) ≤ body.length / 3 then quotedPrintable
  else base64

/-! ## Quoted printable -/

/-- A digit in upper case. -/
def hexDigit (n : Nat) : Char := "0123456789ABCDEF".toList.getD n '0'

/-- A byte behind a sign of escape. -/
def escapedByte (sign : Char) (b : UInt8) : List Char :=
  [sign, hexDigit (b.toNat / 16), hexDigit (b.toNat % 16)]

/-- A byte in quoted printable form. -/
def quotedByte (b : UInt8) : List Char :=
  if isPrintableByte b && b != 61 then [Char.ofNat b.toNat] else escapedByte '=' b

/-- Bytes up to each pair of a carriage return and a line feed. -/
def bodyLines : List UInt8 → List (List UInt8)
  | [] => [[]]
  | 13 :: 10 :: rest => [] :: bodyLines rest
  | b :: rest =>
      match bodyLines rest with
      | [] => [[b]]
      | line :: lines => (b :: line) :: lines

/-- Fill lines with pieces that are not cut. The last piece of a full line moves to the next one,
so that the line has room for the sign at its end. -/
def softLines (settled last : List Char) : List (List Char) → List (List Char)
  | [] => [settled ++ last]
  | piece :: rest =>
      let length := settled.length + last.length
      if length + piece.length ≤ maxEncodedLine then softLines (settled ++ last) piece rest
      else if length = maxEncodedLine then (settled ++ ['=']) :: softLines last piece rest
      else (settled ++ last ++ ['=']) :: softLines [] piece rest

/-- The lines of a body in quoted printable form. -/
def quotedPrintableLines (body : List UInt8) : List (List Char) :=
  (bodyLines body).flatMap fun line => softLines [] [] (line.map quotedByte)

/-! ## Base64 -/

/-- Cut a text into lines of a length, given a bound on their number. -/
def chunks (length : Nat) : Nat → List Char → List (List Char)
  | 0, _ => []
  | bound + 1, cs =>
      if cs.isEmpty then [] else cs.take length :: chunks length bound (cs.drop length)

/-- The lines of a body in base64. -/
def base64Lines (body : List UInt8) : List (List Char) :=
  let text := Text.base64 body
  if text.isEmpty then [[]] else chunks maxEncodedLine text.length text

/-! ## Lines -/

/-- Every end of a line, whether a carriage return, a line feed or both, as both. -/
def withWireBreaks : List Char → List Char
  | [] => []
  | '\r' :: '\n' :: rest => '\r' :: '\n' :: withWireBreaks rest
  | c :: rest =>
      if c == '\r' || c == '\n' then '\r' :: '\n' :: withWireBreaks rest
      else c :: withWireBreaks rest

/-- The lines of a body in an encoding. -/
def encodedLines (encoding : Encoding) (body : List UInt8) : List (List Char) :=
  match encoding with
  | .plain => (bodyLines body).map fun line => line.map fun b => Char.ofNat b.toNat
  | .quotedPrintable => quotedPrintableLines body
  | .base64 => base64Lines body

end Stepwise.Mail
