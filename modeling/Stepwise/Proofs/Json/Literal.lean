import Mathlib.Data.List.TakeWhile
import Stepwise.Json.Literal

/-!
# Integers survive being written

The text of an integer is its decimal digits behind an optional minus. Read as a number literal it
gives the integer again if that fits in 64 bits, signed when it is negative and unsigned otherwise,
and the reading stops where the digits do. For floating point numbers there is no such law: a
literal is computed with two roundings, so a number reads back only when these agree with it.
-/

namespace Stepwise

namespace Json

/-- A text in front of which a number literal ends: it starts with no digit, point or power. -/
def EndsNumber (rest : List Char) : Prop :=
  ∀ c ∈ rest.head?, c.isDigit = false ∧ c ≠ '.' ∧ c ≠ 'e' ∧ c ≠ 'E'

@[simp] theorem endsNumber_nil : EndsNumber [] := by simp [EndsNumber]

end Json

/-- Wherever the text of a number stands, the number is read from it again. -/
def Number.ReadsBack (n : Number) : Prop :=
  ∀ rest, Json.EndsNumber rest → Json.readNumber (n.text.toList ++ rest) = some (n, rest)

namespace Json

/-! ## Digits -/

/-- Every digit that is appended makes the significand larger. -/
theorem le_ofDigitChars (init : Nat) (ds : List Char) : init ≤ Nat.ofDigitChars 10 ds init := by
  induction ds generalizing init with
  | nil => simp
  | cons d rest ih =>
      rw [Nat.ofDigitChars_cons]
      have hrest := ih (10 * init + (d.toNat - '0'.toNat))
      omega

/-- Digits whose value fits in 64 bits are gathered to the last one. -/
theorem gather_eq {init : Nat} {ds : List Char}
    (h : Nat.ofDigitChars 10 ds init < Nat.pow 2 64) :
    gather init ds = (Nat.ofDigitChars 10 ds init, []) := by
  induction ds generalizing init with
  | nil => simp [gather]
  | cons d rest ih =>
      rw [Nat.ofDigitChars_cons, Nat.mul_comm] at h
      have hnext := le_ofDigitChars (init * 10 + (d.toNat - '0'.toNat)) rest
      have hfits : init * 10 + (d.toNat - '0'.toNat) < Nat.pow 2 64 := by omega
      rw [gather, if_pos hfits, ih h, Nat.ofDigitChars_cons, Nat.mul_comm 10]

/-- Only the digits of zero start with a zero. -/
theorem head?_toDigits {n : Nat} (h : 0 < n) : (Nat.toDigits 10 n).head? ≠ some '0' := by
  induction n using Nat.strongRecOn with
  | ind n ih =>
      by_cases hsmall : n < 10
      · rw [Nat.toDigits_of_lt_base hsmall]
        simp
        omega
      · have hbase : 10 ≤ n := by omega
        have hne : Nat.toDigits 10 (n / 10) ≠ [] := Nat.toDigits_ne_nil
        rw [Nat.toDigits_of_base_le (by decide) hbase, List.head?_append,
          List.head?_eq_some_head hne, Option.some_or, ← List.head?_eq_some_head hne]
        exact ih (n / 10) (by omega) (by omega)

theorem isDigit_of_mem_toDigits {n : Nat} : ∀ c ∈ Nat.toDigits 10 n, c.isDigit = true :=
  fun _ hc => Nat.isDigit_of_mem_toDigits (by decide) (by decide) hc

variable {ds rest : List Char}

theorem EndsNumber.takeWhile (h : EndsNumber rest) : rest.takeWhile Char.isDigit = [] := by
  cases rest with
  | nil => rfl
  | cons c rest =>
      have hc := (h c rfl).1
      simp [hc]

theorem EndsNumber.dropWhile (h : EndsNumber rest) : rest.dropWhile Char.isDigit = rest := by
  cases rest with
  | nil => rfl
  | cons c rest =>
      have hc := (h c rfl).1
      simp [hc]

theorem readDigits_append (hne : ds ≠ []) (hds : ∀ c ∈ ds, c.isDigit = true)
    (h : EndsNumber rest) : readDigits (ds ++ rest) = some (ds, rest) := by
  have htake : (ds ++ rest).takeWhile Char.isDigit = ds := by
    rw [List.takeWhile_append_of_pos hds, h.takeWhile, List.append_nil]
  have hdrop : (ds ++ rest).dropWhile Char.isDigit = rest := by
    rw [List.dropWhile_append_of_pos hds, h.dropWhile]
  rw [readDigits, htake, hdrop]
  cases ds with
  | nil => exact absurd rfl hne
  | cons d ds => rfl

theorem EndsNumber.readFraction (h : EndsNumber rest) : readFraction rest = some (none, rest) := by
  cases rest with
  | nil => rfl
  | cons c rest =>
      have hc := (h c rfl).2.1
      rw [Json.readFraction]
      intro rest' heq
      exact hc (List.cons.inj heq).1

theorem EndsNumber.readExponent (h : EndsNumber rest) : readExponent rest = some (none, rest) := by
  cases rest with
  | nil => rfl
  | cons c rest =>
      obtain ⟨-, -, he, hE⟩ := h c rfl
      simp [Json.readExponent, he, hE]

/-! ## Literals with their sign -/

theorem readLiteral_eq_some_iff {cs left : List Char} {l : Literal} :
    readLiteral cs = some (l, left) ↔
      ∃ behind behind', readDigits cs = some (l.whole, behind) ∧
        ¬(l.whole.head? = some '0' ∧ 1 < l.whole.length) ∧
        readFraction behind = some (l.fraction, behind') ∧
        readExponent behind' = some (l.power, left) := by
  rw [readLiteral, Option.bind_eq_bind, Option.bind_eq_some_iff]
  constructor
  · rintro ⟨⟨whole, behind⟩, hwhole, h⟩
    dsimp only at h
    by_cases hlead : whole.head? = some '0' ∧ 1 < whole.length
    · rw [if_pos hlead] at h
      cases h
    · rw [if_neg hlead] at h
      simp only [Option.bind_eq_bind, Option.bind_eq_some_iff, Option.pure_def] at h
      obtain ⟨⟨fraction, behind'⟩, hfraction, ⟨power, left'⟩, hpower, heq⟩ := h
      cases heq
      exact ⟨behind, behind', hwhole, hlead, hfraction, hpower⟩
  · rintro ⟨behind, behind', hwhole, hlead, hfraction, hpower⟩
    refine ⟨(l.whole, behind), hwhole, ?_⟩
    simp only [if_neg hlead, hfraction, hpower, Option.bind_eq_bind, Option.bind_some,
      Option.pure_def]

/-- What stands behind the sign of a number literal. -/
def readMagnitude (negative : Bool) (cs : List Char) : Option (Number × List Char) :=
  (readLiteral cs).bind fun literal => (literal.1.number? negative).map (·, literal.2)

theorem readNumber_eq (cs : List Char) :
    readNumber cs = readMagnitude (splitMinus cs).1 (splitMinus cs).2 := by
  unfold readNumber readMagnitude
  simp only [Option.bind_eq_bind, Option.pure_def, Option.map_eq_bind, Function.comp_def]

theorem readNumber_minus (cs : List Char) : readNumber ('-' :: cs) = readMagnitude true cs :=
  readNumber_eq _

theorem readNumber_of_head {cs : List Char} (h : cs.head? ≠ some '-') :
    readNumber cs = readMagnitude false cs := by
  have hsplit : splitMinus cs = (false, cs) := by
    unfold splitMinus
    split
    · exact absurd rfl h
    · rfl
  rw [readNumber_eq, hsplit]

/-! ## Integers -/

/-- Digits without a leading zero are read as a whole number without more. -/
theorem readNumber_append (negative : Bool) (hne : ds ≠ []) (hds : ∀ c ∈ ds, c.isDigit = true)
    (hzero : ds.head? = some '0' → ds.length ≤ 1) (h : EndsNumber rest) :
    readNumber ((if negative then ['-'] else []) ++ ds ++ rest) =
      (Literal.number? negative ⟨ds, none, none⟩).map (·, rest) := by
  have hliteral : readLiteral (ds ++ rest) = some (⟨ds, none, none⟩, rest) :=
    readLiteral_eq_some_iff.mpr ⟨rest, rest, readDigits_append hne hds h,
      fun hlead => Nat.not_lt_of_le (hzero hlead.1) hlead.2, h.readFraction, h.readExponent⟩
  have hminus : (ds ++ rest).head? ≠ some '-' := by
    cases ds with
    | nil => exact absurd rfl hne
    | cons d ds =>
        rintro heq
        obtain rfl : d = '-' := Option.some.inj heq
        cases hds '-' List.mem_cons_self
  cases negative with
  | true =>
      rw [if_pos rfl, List.cons_append, List.cons_append, List.nil_append, readNumber_minus,
        readMagnitude, hliteral, Option.bind_some]
  | false =>
      rw [if_neg Bool.false_ne_true, List.nil_append, readNumber_of_head hminus, readMagnitude,
        hliteral, Option.bind_some]

/-- The digits of a number below the bound of a literal are its significand. -/
theorem number?_toDigits (negative : Bool) {n : Nat} (h : n < Nat.pow 2 64) :
    Literal.number? negative ⟨Nat.toDigits 10 n, none, none⟩ =
      if negative then
        if n = 0 ∨ Nat.pow 2 63 < n then some (.float (Double.ofRatio true n 1))
        else some (.int (-(n : Int)))
      else some (.int n) := by
  have hvalue : Nat.ofDigitChars 10 (Nat.toDigits 10 n) 0 = n := Nat.ofDigitChars_ten_toDigits
  have hfits : Nat.ofDigitChars 10 (Nat.toDigits 10 n) 0 < Nat.pow 2 64 := by
    rw [hvalue]
    exact h
  have hgather : gather 0 (Nat.toDigits 10 n) = (n, []) := by
    rw [gather_eq hfits, hvalue]
  simp only [Literal.number?, hgather, List.isEmpty_nil, Option.isNone_none, Bool.and_self,
    if_true]

end Json

/-- An integer that fits in 64 bits reads back. -/
theorem Number.readsBack_int {n : Int} (hlow : -Int.ofNat (Nat.pow 2 63) ≤ n)
    (hhigh : n < Int.ofNat (Nat.pow 2 64)) : (Number.int n).ReadsBack := by
  intro rest hrest
  rw [Int.ofNat_eq_natCast] at hlow hhigh
  have hranges : Nat.pow 2 63 < Nat.pow 2 64 := by decide
  have hzero (k : Nat) : (Nat.toDigits 10 k).head? = some '0' → (Nat.toDigits 10 k).length ≤ 1 := by
    intro hhead
    by_cases hk : 0 < k
    · exact absurd hhead (Json.head?_toDigits hk)
    · obtain rfl : k = 0 := by omega
      simp
  have hread (negative : Bool) (k : Nat) := Json.readNumber_append negative
    Nat.toDigits_ne_nil Json.isDigit_of_mem_toDigits (hzero k) hrest
  by_cases hsign : 0 ≤ n
  · obtain ⟨k, rfl⟩ := Int.eq_ofNat_of_zero_le hsign
    have hk : k < Nat.pow 2 64 := by omega
    have htext : (Number.int k).text.toList = Nat.toDigits 10 k := Nat.toList_repr
    have hpositive := hread false k
    rw [Json.number?_toDigits false hk] at hpositive
    rw [htext]
    exact hpositive
  · obtain ⟨k, rfl⟩ : ∃ k : Nat, n = -(k : Int) := ⟨n.natAbs, by omega⟩
    have hk : k < Nat.pow 2 64 := by omega
    have hpos : ¬(k = 0 ∨ Nat.pow 2 63 < k) := by omega
    have htext : (Number.int (-(k : Int))).text.toList = '-' :: Nat.toDigits 10 k := by
      have hneg : -(k : Int) < 0 := by omega
      change (toString (-(k : Int))).toList = _
      rw [Int.toString_eq_repr, Int.repr_eq_if, if_neg (Int.not_le.mpr hneg)]
      simp
    have hnegative := hread true k
    rw [Json.number?_toDigits true hk, if_pos rfl, if_neg hpos] at hnegative
    rw [htext]
    exact hnegative

end Stepwise
