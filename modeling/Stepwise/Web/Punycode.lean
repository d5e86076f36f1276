/-!
# Punycode

A label of a domain as ASCII letters and digits: its ASCII characters come first, and then, in the
order of their code points, how far to walk through the label to each of the others.
-/

namespace Stepwise.Web.Punycode

/-- A digit in base 36. -/
def digit (n : Nat) : Char :=
  if n < 26 then Char.ofNat ('a'.toNat + n) else Char.ofNat ('0'.toNat + n - 26)

/-- The value from which on another digit follows. -/
def threshold (position bias : Nat) : Nat :=
  min 26 (max 1 (position - bias))

/-- The digits of a number, given a bound on their count. -/
def digits (bias : Nat) : Nat → Nat → Nat → List Char
  | 0, _, _ => []
  | bound + 1, position, n =>
      let t := threshold position bias
      if n < t then [digit n]
      else digit (t + (n - t) % (36 - t)) ::
        digits bias bound (position + 36) ((n - t) / (36 - t))

/-- Divide until a number is small, and count the divisions. -/
def shrink : Nat → Nat → Nat × Nat
  | 0, n => (n, 0)
  | bound + 1, n =>
      if n > 455 then
        let (small, count) := shrink bound (n / 35)
        (small, count + 1)
      else (n, 0)

/-- The bias after a step. -/
def adapt (delta count : Nat) (first : Bool) : Nat :=
  let halved := if first then delta / 700 else delta / 2
  let (small, divisions) := shrink 16 (halved + halved / count)
  36 * divisions + 36 * small / (small + 38)

/-- How far the walk has come. -/
structure Walk where
  written : List Char
  delta : Nat
  bias : Nat
  done : Nat

/-- Pass one character of the label while the characters of one code point are placed. -/
def Walk.pass (ascii point : Nat) (w : Walk) (c : Char) : Walk :=
  if c.toNat < point then { w with delta := w.delta + 1 }
  else if c.toNat = point then
    { written := w.written ++ digits w.bias 16 36 w.delta
      delta := 0
      bias := adapt w.delta (w.done + 1) (w.done == ascii)
      done := w.done + 1 }
  else w

/-- Place the characters of each code point in turn. -/
def Walk.placeAll (label : List Char) (ascii last : Nat) (w : Walk) : List Nat → Walk
  | [] => w
  | point :: rest =>
      let w := { w with delta := w.delta + (point - last) * (w.done + 1) }
      let w := label.foldl (Walk.pass ascii point) w
      placeAll label ascii (point + 1) { w with delta := w.delta + 1 } rest

/-- The code points that are not ASCII, in order. -/
def points (label : List Char) : List Nat :=
  (((label.map Char.toNat).filter (0x80 ≤ ·)).eraseDups).mergeSort fun a b => a ≤ b

/-- The ASCII form of a label. -/
def encode (label : List Char) : List Char :=
  let plain := label.filter fun c => c.toNat < 0x80
  if plain.length = label.length then label
  else
    let head := if plain.isEmpty then [] else plain ++ ['-']
    let walk := Walk.placeAll label plain.length 0x80 ⟨[], 0, 72, plain.length⟩ (points label)
    "xn--".toList ++ head ++ walk.written

end Stepwise.Web.Punycode
