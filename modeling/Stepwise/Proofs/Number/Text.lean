import Stepwise.Proofs.Number.Literal

/-!
# The text of a number

The text of a number is a literal behind an optional minus, so it reads as the double nearest to the
decimal that it shows. For a finite number this is the number itself, and numbers are told apart by
their texts: the text of a double has a point or a power of ten, which the text of an integer has
not. White space around a text does not count, and the text of a number has none.
-/

namespace Stepwise

namespace Number

open Double (Decimal ofDecimal)

/-- Whether the text of a number starts with a minus. -/
def isNegative : Number → Bool
  | int n => n < 0
  | float d => d.negative

/-- The decimal that the text of a number shows. -/
def decimal : Number → Decimal
  | int n => ⟨n.natAbs, 0⟩
  | float d => if d.isZero then ⟨0, 0⟩ else d.shortest

theorem toList_text_int (n : Int) :
    (int n).text.toList = (if n < 0 then ['-'] else []) ++ Nat.toDigits 10 n.natAbs := by
  change (toString n).toList = _
  rw [Int.toString_eq_repr, Int.repr_eq_if]
  by_cases hsign : n < 0
  · have htoNat : (-n).toNat = n.natAbs := by omega
    rw [if_neg (Int.not_le.mpr hsign), if_pos hsign, String.toList_append, Nat.toList_repr, htoNat]
    rfl
  · have htoNat : n.toNat = n.natAbs := by omega
    rw [if_pos (Int.not_lt.mp hsign), if_neg hsign, Nat.toList_repr, htoNat, List.nil_append]

theorem exists_text_float_eq (d : Double) :
    ∃ cs, (float d).text.toList = (if d.negative then ['-'] else []) ++ cs ∧
      (d.isZero = true ∧ cs = ['0', '.', '0'] ∨ d.isZero = false ∧
        (cs = d.shortest.positional.toList ∨ cs = d.shortest.scientific.toList)) := by
  have hsign : (if d.negative then "-" else "").toList = if d.negative then ['-'] else [] := by
    split <;> rfl
  rw [text, Double.text]
  cases hzero : d.isZero with
  | true =>
      rw [if_pos rfl, String.toList_append, hsign]
      exact ⟨_, rfl, Or.inl ⟨rfl, rfl⟩⟩
  | false =>
      rw [if_neg Bool.false_ne_true, String.toList_append, hsign]
      refine ⟨_, rfl, Or.inr ⟨rfl, ?_⟩⟩
      split
      · exact Or.inl rfl
      · exact Or.inr rfl

theorem exists_text_eq (n : Number) :
    ∃ cs, n.text.toList = (if n.isNegative then ['-'] else []) ++ cs ∧ n.decimal.IsWritten cs := by
  cases n with
  | int n =>
      refine ⟨_, ?_, Double.Decimal.isWritten_digits n.natAbs⟩
      simp only [toList_text_int, isNegative, decide_eq_true_eq]
  | float d =>
      obtain ⟨cs, htext, ⟨hzero, rfl⟩ | ⟨hzero, hnotation⟩⟩ := exists_text_float_eq d
      · refine ⟨_, htext, ?_⟩
        rw [decimal, if_pos hzero]
        exact Double.Decimal.isWritten_zero
      · refine ⟨cs, htext, ?_⟩
        rw [decimal, hzero, if_neg Bool.false_ne_true]
        rcases hnotation with rfl | rfl
        · exact d.shortest.isWritten_positional
        · exact d.shortest.isWritten_scientific

/-- The text of a number reads as the double nearest to the decimal that it shows. -/
theorem ofText?_text (n : Number) :
    Double.ofText? n.text = some (ofDecimal n.isNegative n.decimal.digits n.decimal.exponent) := by
  obtain ⟨cs, htext, hwritten⟩ := n.exists_text_eq
  rw [← String.ofList_toList (s := n.text), htext]
  exact Double.ofText?_signed hwritten n.isNegative

/-- An integer, or a double within the range. -/
def isFinite : Number → Bool
  | int _ => true
  | float d => d.isFinite

/-- The text of a finite number reads as the number. -/
theorem ofText?_text_of_isFinite {n : Number} (h : n.isFinite = true) :
    Double.ofText? n.text = some n.toDouble := by
  rw [n.ofText?_text, Option.some.injEq]
  cases n with
  | int n =>
      rw [Double.ofDecimal_eq]
      exact congrArg₂ (Double.ofRatio _) (Nat.mul_one _) rfl
  | float d =>
      rw [isNegative, decimal, toDouble]
      cases hzero : d.isZero with
      | true =>
          have hmagnitude : d.magnitude = 0 := eq_of_beq hzero
          rw [if_pos rfl, Double.ofDecimal_eq]
          exact congrArg (Double.mk d.negative) hmagnitude.symm
      | false =>
          rw [if_neg Bool.false_ne_true]
          exact Double.ofDecimal_shortest h hzero

theorem toList_text_ne_nil (n : Number) : n.text.toList ≠ [] := by
  obtain ⟨cs, htext, l, hl, rfl, -⟩ := n.exists_text_eq
  obtain ⟨c, rest, hchars, -⟩ := Json.Literal.exists_chars_eq_cons hl
  rw [htext, hchars]
  exact List.append_ne_nil_of_right_ne_nil _ (List.cons_ne_nil c rest)

theorem isLiteralChar_of_mem_text (n : Number) :
    ∀ c ∈ n.text.toList, Json.Literal.isLiteralChar c = true := by
  obtain ⟨cs, htext, l, hl, rfl, -⟩ := n.exists_text_eq
  rw [htext]
  intro c hc
  rcases List.mem_append.mp hc with hminus | hchars
  · split at hminus
    · rw [List.mem_singleton.mp hminus]
      decide
    · cases hminus
  · exact Json.Literal.isLiteralChar_of_mem_chars hl c hchars

theorem trim_text (n : Number) : Text.trim n.text = n.text := by
  have hblank : ∀ c ∈ n.text.toList, Text.isBlank c = false := fun c hc =>
    Json.Literal.isBlank_of_isLiteralChar (n.isLiteralChar_of_mem_text c hc)
  have hkept (cs : List Char) (h : ∀ c ∈ cs, Text.isBlank c = false) :
      cs.dropWhile Text.isBlank = cs := by
    rw [List.dropWhile_eq_self_iff]
    intro hpos
    simp [h _ (List.getElem_mem hpos)]
  rw [Text.trim, Text.trimChars, hkept _ hblank,
    hkept _ (fun c hc => hblank c (List.mem_reverse.mp hc)), List.reverse_reverse,
    String.ofList_toList]

/-! ## Numbers told apart -/

theorem toDigits_ne_minus {n : Nat} {cs : List Char} : Nat.toDigits 10 n ≠ '-' :: cs := by
  intro h
  have hdigit := Double.isDigit_of_mem_digits n '-' (by rw [h]; exact List.mem_cons_self)
  cases hdigit

theorem text_int_injective {a b : Int} (h : (int a).text = (int b).text) : a = b := by
  have htext := congrArg String.toList h
  rw [toList_text_int, toList_text_int] at htext
  have hdigits : Nat.toDigits 10 a.natAbs = Nat.toDigits 10 b.natAbs → a.natAbs = b.natAbs := by
    intro heq
    rw [← Double.digitsValue_toDigits a.natAbs, heq, Double.digitsValue_toDigits]
  by_cases ha : a < 0 <;> by_cases hb : b < 0
  · rw [if_pos ha, if_pos hb] at htext
    have habs := hdigits (List.append_cancel_left htext)
    omega
  · rw [if_pos ha, if_neg hb] at htext
    exact absurd htext.symm toDigits_ne_minus
  · rw [if_neg ha, if_pos hb] at htext
    exact absurd htext toDigits_ne_minus
  · rw [if_neg ha, if_neg hb] at htext
    have habs := hdigits htext
    omega

/-- The text of a double has a point or a power of ten, which the text of an integer has not. -/
theorem exists_mem_text_float (d : Double) :
    ∃ c ∈ (float d).text.toList, c = '.' ∨ c = 'e' := by
  obtain ⟨cs, htext, hcs⟩ := exists_text_float_eq d
  rw [htext]
  simp only [List.mem_append]
  rcases hcs with ⟨-, rfl⟩ | ⟨-, rfl | rfl⟩
  · exact ⟨'.', Or.inr (by decide), Or.inl rfl⟩
  · exact ⟨'.', Or.inr d.shortest.mem_positional, Or.inl rfl⟩
  · exact ⟨'e', Or.inr d.shortest.mem_scientific, Or.inr rfl⟩

theorem text_int_ne_text_float (a : Int) (d : Double) : (int a).text ≠ (float d).text := by
  intro h
  obtain ⟨c, hc, hpoint⟩ := exists_mem_text_float d
  rw [← h, toList_text_int, List.mem_append] at hc
  rcases hc with hminus | hdigit
  · split at hminus
    · rw [List.mem_singleton.mp hminus] at hpoint
      revert hpoint
      decide
    · cases hminus
  · have hisDigit := Double.isDigit_of_mem_digits _ c hdigit
    rcases hpoint with rfl | rfl <;> cases hisDigit

/-- Finite numbers with one text are one number. -/
theorem text_injective {m n : Number} (hm : m.isFinite = true) (hn : n.isFinite = true)
    (h : m.text = n.text) : m = n := by
  cases m with
  | int a =>
      cases n with
      | int b => rw [text_int_injective h]
      | float y => exact absurd h (text_int_ne_text_float a y)
  | float x =>
      cases n with
      | int b => exact absurd h.symm (text_int_ne_text_float b x)
      | float y =>
          have hx := ofText?_text_of_isFinite hm
          rw [h, ofText?_text_of_isFinite hn] at hx
          exact congrArg float (Option.some.inj hx).symm

end Number

end Stepwise
