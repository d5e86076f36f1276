/-!
# Bytes read as text

Bytes are read as UTF-8. What is not well formed is replaced: each byte sequence that could have
begun a character, as far as it goes, counts as one replacement.
-/

namespace Stepwise.Text

/-- How a character begins in bytes: how many bytes follow, and the range of the first of them. -/
structure Utf8Lead where
  payload : Nat
  following : Nat
  low : UInt8
  high : UInt8

/-- What a leading byte says, if it is one. -/
def utf8Lead? (b : UInt8) : Option Utf8Lead :=
  if b < 0x80 then some ⟨b.toNat, 0, 0, 0⟩
  else if b < 0xC2 then none
  else if b < 0xE0 then some ⟨b.toNat % 32, 1, 0x80, 0xBF⟩
  else if b == 0xE0 then some ⟨0, 2, 0xA0, 0xBF⟩
  else if b == 0xED then some ⟨13, 2, 0x80, 0x9F⟩
  else if b < 0xF0 then some ⟨b.toNat % 16, 2, 0x80, 0xBF⟩
  else if b == 0xF0 then some ⟨0, 3, 0x90, 0xBF⟩
  else if b < 0xF4 then some ⟨b.toNat % 8, 3, 0x80, 0xBF⟩
  else if b == 0xF4 then some ⟨4, 3, 0x80, 0x8F⟩
  else none

/-- The character that stands for what cannot be read. -/
def replacement : Char := '\ufffd'

/-- A character that has been begun: the bits so far, and what has to follow. -/
structure Utf8Pending where
  bits : Nat
  following : Nat
  low : UInt8
  high : UInt8

/-- Begin with a byte: a whole character, or one to be continued. -/
def utf8Begin (b : UInt8) : Option Utf8Pending × List Char :=
  match utf8Lead? b with
  | none => (none, [replacement])
  | some ⟨payload, 0, _, _⟩ => (none, [Char.ofNat payload])
  | some ⟨payload, following, low, high⟩ => (some ⟨payload, following, low, high⟩, [])

/-- Read bytes after a character that may have been begun. -/
def utf8Lossy (pending : Option Utf8Pending) : List UInt8 → List Char
  | [] => if pending.isSome then [replacement] else []
  | b :: rest =>
      match pending with
      | none =>
          let (next, found) := utf8Begin b
          found ++ utf8Lossy next rest
      | some p =>
          if p.low ≤ b && b ≤ p.high then
            let bits := p.bits * 64 + b.toNat % 64
            if p.following ≤ 1 then Char.ofNat bits :: utf8Lossy none rest
            else utf8Lossy (some ⟨bits, p.following - 1, 0x80, 0xBF⟩) rest
          else
            let (next, found) := utf8Begin b
            replacement :: (found ++ utf8Lossy next rest)

/-- The text of some bytes. -/
def ofBytesLossy (bytes : List UInt8) : String :=
  String.ofList (utf8Lossy none bytes)

end Stepwise.Text
