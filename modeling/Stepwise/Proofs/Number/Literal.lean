import Mathlib.Data.List.TakeWhile
import Stepwise.Json.Literal
import Stepwise.Proofs.Number.Shortest
import Stepwise.Text.Blank

/-!
# Literals read as numbers

Each notation of a decimal is a literal: digits, perhaps a point and more digits, perhaps a power of
ten. Read as plain text a literal is the double nearest to its decimal value, so the notations of
one decimal, which have one value, are read as one number. No character of a literal is white space.
-/

namespace Stepwise

namespace Double

/-! ## Digits -/

theorem digitsValue_eq (ds : List Char) : digitsValue ds = Nat.ofDigitChars 10 ds 0 := by
  simp only [digitsValue, Nat.ofDigitChars, Nat.mul_comm]

@[simp] theorem digitsValue_toDigits (n : Nat) : digitsValue (Nat.toDigits 10 n) = n := by
  rw [digitsValue_eq, Nat.ofDigitChars_ten_toDigits]

theorem digitsValue_concat (ds : List Char) (c : Char) :
    digitsValue (ds ++ [c]) = digitsValue ds * 10 + (c.toNat - '0'.toNat) := by
  simp only [digitsValue, List.foldl_append, List.foldl_cons, List.foldl_nil]

theorem digitsValue_append_zeros (ds : List Char) (k : Nat) :
    digitsValue (ds ++ List.replicate k '0') = digitsValue ds * 10 ^ k := by
  induction k with
  | zero => simp
  | succ k ih =>
      rw [List.replicate_succ', ← List.append_assoc, digitsValue_concat, ih, Nat.pow_succ,
        Nat.mul_assoc]
      rfl

theorem digitsValue_zeros_append (k : Nat) (ds : List Char) :
    digitsValue (List.replicate k '0' ++ ds) = digitsValue ds := by
  induction k with
  | zero => rfl
  | succ k ih =>
      rw [List.replicate_succ, List.cons_append]
      exact ih

end Double

/-! ## Literals -/

namespace Json.Literal

open Double (digitsValue splitFraction splitSign readPower readUnsigned ofDecimal)

/-- The digits in front of the point and behind it. -/
def fractionDigits (l : Literal) : List Char := l.fraction.getD []

/-- The digits of a literal as one number. -/
def significand (l : Literal) : Nat := digitsValue (l.whole ++ l.fractionDigits)

/-- The power of ten by which the significand of a literal is multiplied. -/
def exponent (l : Literal) : Int := l.power.getD 0 - l.fractionDigits.length

/-- The point with the digits behind it. -/
def pointChars (l : Literal) : List Char :=
  match l.fraction with
  | none => []
  | some ds => '.' :: ds

/-- The power of ten with its sign. -/
def powerChars (l : Literal) : List Char :=
  match l.power with
  | none => []
  | some n => 'e' :: (if 0 ≤ n then '+' else '-') :: Nat.toDigits 10 n.natAbs

/-- The characters of a literal. -/
def chars (l : Literal) : List Char := l.whole ++ (l.pointChars ++ l.powerChars)

/-- The parts of a literal are digits, and there are some in front of the point. -/
structure HasDigits (l : Literal) : Prop where
  ne_nil : l.whole ≠ []
  whole : ∀ c ∈ l.whole, c.isDigit = true
  fraction : ∀ c ∈ l.fractionDigits, c.isDigit = true

variable {l : Literal}

/-- A run of characters of one kind ends where none of this kind stands. -/
theorem takeWhile_run {p : Char → Bool} {run rest : List Char} (hrun : ∀ c ∈ run, p c = true)
    (hrest : ∀ c ∈ rest.head?, p c = false) :
    (run ++ rest).takeWhile p = run ∧ (run ++ rest).dropWhile p = rest := by
  rw [List.takeWhile_append_of_pos hrun, List.dropWhile_append_of_pos hrun]
  cases rest with
  | nil => simp
  | cons c rest =>
      have hc := hrest c rfl
      simp [hc]

theorem head?_powerChars (l : Literal) : ∀ c ∈ l.powerChars.head?, c.isDigit = false := by
  rw [powerChars]
  cases l.power with
  | none => simp
  | some n => simp

theorem head?_pointChars (l : Literal) :
    ∀ c ∈ (l.pointChars ++ l.powerChars).head?, c.isDigit = false := by
  rw [pointChars]
  cases l.fraction with
  | none => exact l.head?_powerChars
  | some ds => simp

theorem splitFraction_chars (h : l.HasDigits) :
    splitFraction (l.pointChars ++ l.powerChars) = (l.fractionDigits, l.powerChars) := by
  have hfraction := h.fraction
  rw [fractionDigits] at hfraction ⊢
  rw [pointChars]
  cases hf : l.fraction with
  | some ds =>
      rw [hf] at hfraction
      obtain ⟨htake, hdrop⟩ := takeWhile_run hfraction l.head?_powerChars
      exact Prod.ext htake hdrop
  | none =>
      rw [powerChars]
      cases l.power <;> rfl

/-- The digits of a number behind a sign are read as this number with the sign. -/
theorem readPower_toDigits {cs : List Char} (minus : Bool) {n : Nat}
    (hsplit : splitSign cs = (minus, Nat.toDigits 10 n)) :
    readPower cs = some (if minus then -(n : Int) else n) := by
  have hne : (Nat.toDigits 10 n).isEmpty = false := by
    rw [List.isEmpty_eq_false_iff]
    exact Nat.toDigits_ne_nil
  have hdigits : (Nat.toDigits 10 n).all Char.isDigit = true :=
    List.all_eq_true.mpr fun _ hc => Nat.isDigit_of_mem_toDigits (by decide) (by decide) hc
  simp only [readPower, hsplit, hne, hdigits, Double.digitsValue_toDigits, Bool.not_true,
    Bool.or_self, Bool.false_eq_true, if_false]

theorem readPower_signed (n : Int) :
    readPower ((if 0 ≤ n then '+' else '-') :: Nat.toDigits 10 n.natAbs) = some n := by
  by_cases hsign : 0 ≤ n
  · rw [if_pos hsign, readPower_toDigits false rfl, if_neg Bool.false_ne_true]
    exact congrArg some (by omega)
  · rw [if_neg hsign, readPower_toDigits true rfl, if_pos rfl]
    exact congrArg some (by omega)

/-- A literal is the double nearest to its decimal value. -/
theorem readUnsigned_chars (h : l.HasDigits) (negative : Bool) :
    readUnsigned negative l.chars = some (ofDecimal negative l.significand l.exponent) := by
  obtain ⟨htake, hdrop⟩ := takeWhile_run h.whole l.head?_pointChars
  have hne : l.whole.isEmpty = false := by
    rw [List.isEmpty_eq_false_iff]
    exact h.ne_nil
  rw [readUnsigned, chars, htake, hdrop, splitFraction_chars h, significand, exponent, powerChars]
  cases l.power with
  | none => simp [hne]
  | some n => simp [hne, readPower_signed]

/-- A character of which literals consist. -/
def isLiteralChar (c : Char) : Bool := c.isDigit || c == '.' || c == 'e' || c == '+' || c == '-'

theorem isLiteralChar_of_isDigit {c : Char} (h : c.isDigit = true) : isLiteralChar c = true := by
  simp only [isLiteralChar, h, Bool.true_or]

theorem isBlank_of_isLiteralChar {c : Char} (h : isLiteralChar c = true) :
    Text.isBlank c = false := by
  have hrange : 43 ≤ c.toNat ∧ c.toNat ≤ 101 := by
    simp only [isLiteralChar, Bool.or_eq_true, beq_iff_eq] at h
    rcases h with (((hdigit | rfl) | rfl) | rfl) | rfl
    · simp only [Char.isDigit, Bool.and_eq_true, decide_eq_true_eq] at hdigit
      have hlow : 48 ≤ c.toNat := UInt32.le_iff_toNat_le.mp hdigit.1
      have hhigh : c.toNat ≤ 57 := UInt32.le_iff_toNat_le.mp hdigit.2
      omega
    all_goals decide
  simp only [Text.isBlank, Bool.or_eq_false_iff, Bool.and_eq_false_iff, decide_eq_false_iff_not,
    beq_eq_false_iff_ne]
  omega

theorem isLiteralChar_of_mem_chars (h : l.HasDigits) : ∀ c ∈ l.chars, isLiteralChar c = true := by
  have hpoint : ∀ c ∈ l.pointChars, isLiteralChar c = true := by
    have hfraction := h.fraction
    rw [fractionDigits] at hfraction
    rw [pointChars]
    cases hf : l.fraction with
    | none => simp
    | some ds =>
        rw [hf] at hfraction
        exact List.forall_mem_cons.mpr
          ⟨by decide, fun c hc => isLiteralChar_of_isDigit (hfraction c hc)⟩
  have hpower : ∀ c ∈ l.powerChars, isLiteralChar c = true := by
    rw [powerChars]
    cases l.power with
    | none => simp
    | some n =>
        refine List.forall_mem_cons.mpr ⟨by decide, List.forall_mem_cons.mpr ⟨?_, ?_⟩⟩
        · split <;> decide
        · exact fun c hc => isLiteralChar_of_isDigit
            (Nat.isDigit_of_mem_toDigits (by decide) (by decide) hc)
  simp only [chars, List.mem_append]
  rintro c (hc | hc | hc)
  · exact isLiteralChar_of_isDigit (h.whole c hc)
  · exact hpoint c hc
  · exact hpower c hc

/-- A literal starts with a digit. -/
theorem exists_chars_eq_cons (h : l.HasDigits) :
    ∃ c rest, l.chars = c :: rest ∧ c.isDigit = true := by
  obtain ⟨c, rest, hwhole⟩ := List.exists_cons_of_ne_nil h.ne_nil
  have hdigits := h.whole
  rw [hwhole] at hdigits
  exact ⟨c, rest ++ (l.pointChars ++ l.powerChars), by rw [chars, hwhole, List.cons_append],
    hdigits c List.mem_cons_self⟩

end Json.Literal

namespace Double

open Json (Literal)

/-! ## Notations -/

/-- The characters are those of a literal with this decimal value. -/
def Decimal.IsWritten (d : Decimal) (cs : List Char) : Prop :=
  ∃ l : Literal, l.HasDigits ∧ cs = l.chars ∧
    ∃ k : Nat, l.significand = d.digits * 10 ^ k ∧ l.exponent = d.exponent - k

theorem isDigit_of_mem_zeros (k : Nat) : ∀ c ∈ List.replicate k '0', c.isDigit = true := by
  intro c hc
  rw [List.eq_of_mem_replicate hc]
  decide

theorem isDigit_of_mem_digits (n : Nat) : ∀ c ∈ Nat.toDigits 10 n, c.isDigit = true :=
  fun _ hc => Nat.isDigit_of_mem_toDigits (by decide) (by decide) hc

theorem Decimal.isWritten_digits (n : Nat) : (⟨n, 0⟩ : Decimal).IsWritten (Nat.toDigits 10 n) := by
  refine ⟨⟨Nat.toDigits 10 n, none, none⟩,
    ⟨Nat.toDigits_ne_nil, isDigit_of_mem_digits n, by simp [Literal.fractionDigits]⟩, ?_, 0, ?_, ?_⟩
  · simp [Literal.chars, Literal.pointChars, Literal.powerChars]
  · simp [Literal.significand, Literal.fractionDigits]
  · simp [Literal.exponent, Literal.fractionDigits]

theorem Decimal.isWritten_zero : (⟨0, 0⟩ : Decimal).IsWritten ['0', '.', '0'] :=
  ⟨⟨['0'], some ['0'], none⟩, ⟨by simp, by simp, by simp [Literal.fractionDigits]⟩, rfl, 1, rfl,
    rfl⟩

theorem Decimal.isWritten_positional (d : Decimal) : d.IsWritten d.positional.toList := by
  have hdigits := isDigit_of_mem_digits d.digits
  have hne : Nat.toDigits 10 d.digits ≠ [] := Nat.toDigits_ne_nil
  rw [positional]
  by_cases hexponent : 0 ≤ d.exponent
  · -- the zeros and the point behind the digits
    refine ⟨⟨Nat.toDigits 10 d.digits ++ List.replicate d.exponent.toNat '0', some ['0'], none⟩,
      ⟨by simp [hne], ?_, by simp [Literal.fractionDigits]⟩, ?_, d.exponent.toNat + 1, ?_, ?_⟩
    · exact fun c hc => (List.mem_append.mp hc).elim (hdigits c) (isDigit_of_mem_zeros _ c)
    · simp [hexponent, Literal.chars, Literal.pointChars, Literal.powerChars]
    · have hvalue := digitsValue_append_zeros (Nat.toDigits 10 d.digits) (d.exponent.toNat + 1)
      rw [digitsValue_toDigits, List.replicate_succ', ← List.append_assoc] at hvalue
      exact hvalue
    · simp [Literal.exponent, Literal.fractionDigits]
      omega
  · by_cases hwhole : 0 < ((Nat.toDigits 10 d.digits).length : Int) + d.exponent
    · -- the point among the digits
      refine ⟨⟨(Nat.toDigits 10 d.digits).take
          (((Nat.toDigits 10 d.digits).length : Int) + d.exponent).toNat,
        some ((Nat.toDigits 10 d.digits).drop
          (((Nat.toDigits 10 d.digits).length : Int) + d.exponent).toNat), none⟩,
        ⟨?_, fun c hc => hdigits c (List.mem_of_mem_take hc),
          fun c hc => hdigits c (List.mem_of_mem_drop hc)⟩, ?_, 0, ?_, ?_⟩
      · rw [ne_eq, List.take_eq_nil_iff]
        exact not_or.mpr ⟨by omega, hne⟩
      · simp [hexponent, hwhole, Literal.chars, Literal.pointChars, Literal.powerChars]
      · simp [Literal.significand, Literal.fractionDigits]
      · simp [Literal.exponent, Literal.fractionDigits]
        omega
    · -- the zeros and the point in front of the digits
      refine ⟨⟨['0'], some (List.replicate
          (-(((Nat.toDigits 10 d.digits).length : Int) + d.exponent)).toNat '0' ++
            Nat.toDigits 10 d.digits), none⟩, ⟨by simp, by simp, ?_⟩, ?_, 0, ?_, ?_⟩
      · exact fun c hc => (List.mem_append.mp hc).elim (isDigit_of_mem_zeros _ c) (hdigits c)
      · simp [hexponent, hwhole, Literal.chars, Literal.pointChars, Literal.powerChars]
      · have hvalue := digitsValue_zeros_append
          ((-(((Nat.toDigits 10 d.digits).length : Int) + d.exponent)).toNat + 1)
          (Nat.toDigits 10 d.digits)
        rw [digitsValue_toDigits] at hvalue
        rw [Nat.pow_zero, Nat.mul_one]
        exact hvalue
      · simp [Literal.exponent, Literal.fractionDigits]
        omega

theorem Decimal.isWritten_scientific (d : Decimal) : d.IsWritten d.scientific.toList := by
  have hdigits := isDigit_of_mem_digits d.digits
  have hne : Nat.toDigits 10 d.digits ≠ [] := Nat.toDigits_ne_nil
  obtain ⟨c, ds, hds⟩ := List.exists_cons_of_ne_nil hne
  rw [hds] at hdigits
  have hvalue := digitsValue_toDigits d.digits
  rw [hds] at hvalue
  obtain ⟨hc, hrest⟩ := List.forall_mem_cons.mp hdigits
  refine ⟨⟨[c], if ds = [] then none else some ds, some (ds.length + d.exponent)⟩,
    ⟨List.cons_ne_nil _ _, by simpa using hc, ?_⟩, ?_, 0, ?_, ?_⟩
  · by_cases hnil : ds = []
    · simp [Literal.fractionDigits, hnil]
    · simpa [Literal.fractionDigits, hnil] using hrest
  · have hpower : ((ds.length + 1 : Nat) : Int) + d.exponent - 1 = ds.length + d.exponent := by
      omega
    have hrepr (n : Nat) : (toString n).toList = Nat.toDigits 10 n := Nat.toList_repr
    have hsign (n : Int) : (if 0 ≤ n then "+" else "-").toList = [if 0 ≤ n then '+' else '-'] := by
      split <;> rfl
    have hlength : ds.length + 1 ≤ 1 ↔ ds = [] := by
      rw [← List.length_eq_zero_iff]
      omega
    simp only [scientific, hds, List.length_cons, hpower, String.toList_append, hrepr, hsign,
      hlength, Literal.chars, Literal.pointChars, Literal.powerChars]
    by_cases hnil : ds = [] <;> simp [hnil]
  · by_cases hnil : ds = []
    · simpa [Literal.significand, Literal.fractionDigits, hnil] using hvalue
    · simpa [Literal.significand, Literal.fractionDigits, hnil] using hvalue
  · by_cases hnil : ds = []
    · simp [Literal.exponent, Literal.fractionDigits, hnil]
    · simp [Literal.exponent, Literal.fractionDigits, hnil]

theorem Decimal.mem_positional (d : Decimal) : '.' ∈ d.positional.toList := by
  rw [positional]
  split
  · simp
  · split <;> simp

theorem Decimal.mem_scientific (d : Decimal) : 'e' ∈ d.scientific.toList := by
  simp [scientific]

/-! ## Signed numbers -/

/-- A text that starts neither as infinity nor as no number is read as a decimal. -/
theorem ofText?_eq_readUnsigned {text rest : List Char} {minus : Bool} {c : Char}
    (hsplit : splitSign text = (minus, c :: rest)) (hi : c.toLower ≠ 'i') (hn : c.toLower ≠ 'n') :
    ofText? (String.ofList text) = readUnsigned minus (c :: rest) := by
  have hword (w : Char) (ws : List Char) (hw : c.toLower ≠ w) :
      String.ofList ((c :: rest).map Char.toLower) ≠ String.ofList (w :: ws) := by
    intro heq
    exact hw (List.cons.inj (String.ofList_injective heq)).1
  simp only [ofText?, String.toList_ofList, hsplit]
  rw [if_neg, if_neg (hword 'n' ['a', 'n'] hn)]
  exact not_or.mpr ⟨hword 'i' ['n', 'f'] hi, hword 'i' ['n', 'f', 'i', 'n', 'i', 't', 'y'] hi⟩

theorem toLower_of_isDigit {c : Char} (h : c.isDigit = true) : c.toLower = c := by
  simp only [Char.isDigit, Bool.and_eq_true, decide_eq_true_eq] at h
  have hhigh : c.toNat ≤ 57 := UInt32.le_iff_toNat_le.mp h.2
  have hupper : ¬(c.val ≥ 'A'.val ∧ c.val ≤ 'Z'.val) := by
    rintro ⟨hge, -⟩
    have hlow : 65 ≤ c.toNat := UInt32.le_iff_toNat_le.mp hge
    omega
  exact dif_neg hupper

/-- A literal behind a minus or behind no sign is read as a number of this sign. -/
theorem ofText?_signed {d : Decimal} {cs : List Char} (h : d.IsWritten cs) (negative : Bool) :
    ofText? (String.ofList ((if negative then ['-'] else []) ++ cs)) =
      some (ofDecimal negative d.digits d.exponent) := by
  obtain ⟨l, hl, rfl, k, hsignificand, hexponent⟩ := h
  obtain ⟨c, rest, hchars, hc⟩ := Literal.exists_chars_eq_cons hl
  have hne (w : Char) (hw : w.isDigit = false) : c ≠ w := by
    rintro rfl
    rw [hc] at hw
    cases hw
  have hsplit : splitSign ((if negative then ['-'] else []) ++ l.chars) =
      (negative, c :: rest) := by
    rw [hchars]
    cases negative with
    | true => rfl
    | false =>
        have hminus := hne '-' rfl
        have hplus := hne '+' rfl
        simp [splitSign, hminus, hplus]
  have hlower := toLower_of_isDigit hc
  rw [ofText?_eq_readUnsigned hsplit (by rw [hlower]; exact hne 'i' rfl)
    (by rw [hlower]; exact hne 'n' rfl), ← hchars, Literal.readUnsigned_chars hl, hsignificand,
    hexponent, ofDecimal_mul_pow, Int.sub_add_cancel]

end Double

end Stepwise
