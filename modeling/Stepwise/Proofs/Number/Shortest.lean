import Mathlib.Tactic.NormNum
import Stepwise.Number.Shortest
import Stepwise.Proofs.Number.Rounding

/-!
# The shortest digits are those of the number

A decimal is the double nearest to its value; the bounds beyond which no power is computed do not
change it, so decimals of one value are one double. The digits of a finite number are looked for on
finer and finer grids, and what is found reads as the number. Something is found: the first digit of
the value is known, so on the grid of seventeen digits the nearest point is off by at most the
`2 * 10 ^ 16`th part of the value, which is less than its `2 ^ 54`th part.
-/

namespace Stepwise.Double

/-! ## Decimal values -/

/-- Quotients with one value are rounded to one magnitude. -/
theorem magnitudeOf_congr {num den num' den' : Nat} (hden : den ≠ 0) (hden' : den' ≠ 0)
    (h : num * den' = num' * den) : magnitudeOf num den = magnitudeOf num' den' :=
  Nat.le_antisymm (magnitudeOf_mono hden hden' (Nat.le_of_eq h))
    (magnitudeOf_mono hden' hden (Nat.le_of_eq h.symm))

theorem lt_pow_digitCount (n : Nat) : n < 10 ^ digitCount n := by
  rw [digitCount]
  split
  · next hn => rw [hn, pow_zero]; decide
  · exact (Nat.length_toDigits_le_iff (b := 10) (by decide) Nat.length_toDigits_pos).mp
      (Nat.le_refl _)

theorem pow_digitCount_le {n : Nat} (hn : n ≠ 0) :
    0 < digitCount n ∧ 10 ^ (digitCount n - 1) ≤ n := by
  have hpos : 0 < (Nat.toDigits 10 n).length := Nat.length_toDigits_pos
  rw [digitCount, if_neg hn]
  refine ⟨hpos, ?_⟩
  by_cases hone : (Nat.toDigits 10 n).length - 1 = 0
  · rw [hone, pow_zero]
    exact Nat.pos_of_ne_zero hn
  · have hlonger := mt (Nat.length_toDigits_le_iff (b := 10) (n := n) (by decide)
      (Nat.pos_of_ne_zero hone)).mpr
    exact Nat.not_lt.mp (hlonger (by omega))

theorem ten_pow_ne_zero (k : Nat) : 10 ^ k ≠ 0 := pow_ne_zero k (by decide)

/-- A decimal far below the least positive number is rounded to zero. -/
theorem magnitudeOf_of_top_lt {n : Nat} {e : Int} (h : n = 0 ∨ (digitCount n : Int) + e < -330) :
    magnitudeOf (n * 10 ^ e.toNat) (10 ^ (-e).toNat) = 0 := by
  have hle : magnitudeOf (n * 10 ^ e.toNat) (10 ^ (-e).toNat) ≤ magnitudeOf 1 (10 ^ 331) := by
    refine magnitudeOf_mono (ten_pow_ne_zero _) (ten_pow_ne_zero _) ?_
    rcases h with rfl | hlow
    · omega
    · calc
        n * 10 ^ e.toNat * 10 ^ 331 ≤ 10 ^ digitCount n * 10 ^ e.toNat * 10 ^ 331 :=
          Nat.mul_le_mul_right _ (Nat.mul_le_mul_right _ (Nat.le_of_lt (lt_pow_digitCount n)))
        _ = 10 ^ (digitCount n + e.toNat + 331) := by rw [pow_add, pow_add]
        _ ≤ 10 ^ (-e).toNat := Nat.pow_le_pow_right (by decide) (by omega)
        _ = 1 * 10 ^ (-e).toNat := (Nat.one_mul _).symm
  have hzero : magnitudeOf 1 (10 ^ 331) = 0 := by decide +kernel
  rw [hzero] at hle
  exact Nat.le_zero.mp hle

/-- A decimal far beyond the range is rounded to infinity. -/
theorem magnitudeOf_of_lt_top {n : Nat} {e : Int} (hn : n ≠ 0)
    (h : 310 < (digitCount n : Int) + e) :
    magnitudeOf (n * 10 ^ e.toNat) (10 ^ (-e).toNat) = infiniteMagnitude := by
  obtain ⟨hpos, hsmall⟩ := pow_digitCount_le hn
  have hge : magnitudeOf (10 ^ 310) 1 ≤ magnitudeOf (n * 10 ^ e.toNat) (10 ^ (-e).toNat) := by
    refine magnitudeOf_mono (by decide) (ten_pow_ne_zero _) ?_
    calc
      10 ^ 310 * 10 ^ (-e).toNat = 10 ^ (310 + (-e).toNat) := (pow_add 10 _ _).symm
      _ ≤ 10 ^ (digitCount n - 1 + e.toNat) := Nat.pow_le_pow_right (by decide) (by omega)
      _ = 10 ^ (digitCount n - 1) * 10 ^ e.toNat := pow_add 10 _ _
      _ ≤ n * 10 ^ e.toNat := Nat.mul_le_mul_right _ hsmall
      _ = n * 10 ^ e.toNat * 1 := (Nat.mul_one _).symm
  have hinfinite : magnitudeOf (10 ^ 310) 1 = infiniteMagnitude := by decide +kernel
  rw [hinfinite] at hge
  exact Nat.le_antisymm (magnitudeOf_le _ _) hge

/-- A decimal is the double nearest to its value, also where no power is computed. -/
theorem ofDecimal_eq (negative : Bool) (n : Nat) (e : Int) :
    ofDecimal negative n e = ofRatio negative (n * 10 ^ e.toNat) (10 ^ (-e).toNat) := by
  rw [ofDecimal]
  split
  · next hlow => rw [ofRatio, magnitudeOf_of_top_lt hlow]
  · next hlow =>
      split
      · next hhigh => rw [ofRatio, magnitudeOf_of_lt_top (not_or.mp hlow).1 hhigh]
      · split
        · next hsign =>
            have hexp : (-e).toNat = 0 := by omega
            rw [hexp, pow_zero, Nat.pow_eq]
        · next hsign =>
            have hexp : e.toNat = 0 := by omega
            rw [hexp, pow_zero, Nat.mul_one, Nat.pow_eq]

/-- A zero behind the digits can be moved into the power of ten. -/
theorem ofDecimal_mul_ten (negative : Bool) (n : Nat) (e : Int) :
    ofDecimal negative (n * 10) e = ofDecimal negative n (e + 1) := by
  rw [ofDecimal_eq, ofDecimal_eq, ofRatio, ofRatio]
  congr 1
  refine magnitudeOf_congr (ten_pow_ne_zero _) (ten_pow_ne_zero _) ?_
  have hexp : 1 + e.toNat + (-(e + 1)).toNat = (e + 1).toNat + (-e).toNat := by omega
  calc
    n * 10 * 10 ^ e.toNat * 10 ^ (-(e + 1)).toNat
      = n * 10 ^ (1 + e.toNat + (-(e + 1)).toNat) := by ring
    _ = n * 10 ^ ((e + 1).toNat + (-e).toNat) := by rw [hexp]
    _ = n * 10 ^ (e + 1).toNat * 10 ^ (-e).toNat := by ring

theorem ofDecimal_mul_pow (negative : Bool) (n k : Nat) (e : Int) :
    ofDecimal negative (n * 10 ^ k) e = ofDecimal negative n (e + k) := by
  induction k generalizing e with
  | zero => simp
  | succ k ih =>
      rw [Nat.pow_succ, ← Nat.mul_assoc, ofDecimal_mul_ten, ih]
      congr 1
      omega

/-- Zeros that move from the digits into the power of ten do not change the number. -/
theorem ofDecimal_stripped (negative : Bool) (fuel : Nat) (d : Decimal) :
    ofDecimal negative (d.stripped fuel).digits (d.stripped fuel).exponent =
      ofDecimal negative d.digits d.exponent := by
  induction fuel generalizing d with
  | zero => rfl
  | succ fuel ih =>
      rw [Decimal.stripped]
      split
      · next hten =>
          have hdigits : d.digits / 10 * 10 = d.digits := by omega
          rw [ih, ← ofDecimal_mul_ten, hdigits]
      · rfl

/-! ## The exact quotient of a number -/

/-- A number but zero is the quotient of its ratio, and neither side of it has too many bits. -/
structure IsRatio (m num den : Nat) : Prop where
  num_ne_zero : num ≠ 0
  den_ne_zero : den ≠ 0
  eq : num * 2 ^ 1074 = units m * den
  num_log2 : num.log2 ≤ 1100
  den_log2 : den.log2 ≤ 1100

theorem units_ne_zero {m : Nat} (h : m ≠ 0) : units m ≠ 0 :=
  Nat.ne_of_gt (Nat.zero_lt_of_lt (units_strictMono (Nat.pos_of_ne_zero h)))

/-- The significand and the exponent of a finite number. -/
theorem exists_parts_eq {d : Double} (h : d.isFinite = true) :
    ∃ (m : Nat) (q : Int), d.parts = (m, q) ∧ m < 2 ^ 53 ∧ -1074 ≤ q ∧ q ≤ 971 ∧
      units d.magnitude = m * 2 ^ (q + 1074).toNat := by
  have hfinite : d.magnitude < 2047 * 2 ^ 52 := of_decide_eq_true h
  rw [parts, units]
  simp only [Nat.pow_eq]
  split
  · next he =>
      refine ⟨_, _, rfl, by omega, by omega, by omega, ?_⟩
      have hsmall : d.magnitude < 2 ^ 52 := by omega
      rw [if_pos hsmall, Nat.mod_eq_of_lt hsmall]
      simp
  · next he =>
      refine ⟨_, _, rfl, by omega, by omega, by omega, ?_⟩
      have hlarge : ¬d.magnitude < 2 ^ 52 := by omega
      have hexp : (((d.magnitude / 2 ^ 52 : Nat) : Int) - 1075 + 1074).toNat =
          d.magnitude / 2 ^ 52 - 1 := by omega
      rw [if_neg hlarge, hexp]

theorem isRatio_ratio {d : Double} (h : d.isFinite = true) (hzero : d.magnitude ≠ 0) :
    IsRatio d.magnitude d.ratio.1 d.ratio.2 := by
  obtain ⟨m, q, hparts, hm, hlow, hhigh, hunits⟩ := exists_parts_eq h
  have hm0 : m ≠ 0 := by
    rintro rfl
    exact units_ne_zero hzero (by rw [hunits, Nat.zero_mul])
  rw [ratio, hparts]
  by_cases hsign : 0 ≤ q
  · have hexp : (q + 1074).toNat = q.toNat + 1074 := by omega
    have hpow : 2 ^ q.toNat ≠ 0 := pow_ne_zero _ (by decide)
    simp only [if_pos hsign, Nat.pow_eq]
    refine ⟨Nat.mul_ne_zero hm0 hpow, Nat.one_ne_zero, ?_, ?_, by decide⟩
    · rw [hunits, hexp, pow_add, Nat.mul_one, Nat.mul_assoc]
    · have hlog : (m * 2 ^ q.toNat).log2 < 53 + q.toNat := by
        rw [Nat.log2_lt (Nat.mul_ne_zero hm0 hpow), pow_add]
        exact Nat.mul_lt_mul_of_pos_right hm (Nat.two_pow_pos _)
      omega
  · have hexp : 1074 = (q + 1074).toNat + (-q).toNat := by omega
    simp only [if_neg hsign, Nat.pow_eq]
    refine ⟨hm0, pow_ne_zero _ (by decide), ?_, ?_, ?_⟩
    · rw [hunits, Nat.mul_assoc, ← pow_add, ← hexp]
    · have hlog : m.log2 < 53 := (Nat.log2_lt hm0).mpr hm
      omega
    · rw [Nat.log2_two_pow]
      omega

/-! ## The power of ten below a value -/

/-- The value `num / den` is at least the power of ten with this exponent. -/
def ReachesTen (num den : Nat) (k : Int) : Prop := den * 10 ^ k.toNat ≤ num * 10 ^ (-k).toNat

theorem belowPower_eq_false_iff (num den : Nat) (k : Int) :
    belowPower num den k = false ↔ ReachesTen num den k := by
  rw [belowPower, ReachesTen]
  split
  · next hsign =>
      have hexp : (-k).toNat = 0 := by omega
      rw [hexp, pow_zero, Nat.mul_one, decide_eq_false_iff_not, Nat.not_lt, Nat.pow_eq]
  · next hsign =>
      have hexp : k.toNat = 0 := by omega
      rw [hexp, pow_zero, Nat.mul_one, decide_eq_false_iff_not, Nat.not_lt, Nat.pow_eq]

/-- The 59th power of ten is at most the 196th of two. -/
theorem ten_pow_le_two_pow {a b : Nat} (h : 196 * a ≤ 59 * b) : 10 ^ a ≤ 2 ^ b := by
  refine (Nat.pow_le_pow_iff_left (n := 59) (by decide)).mp ?_
  calc
    (10 ^ a) ^ 59 = (10 ^ 59) ^ a := by rw [← pow_mul, ← pow_mul, Nat.mul_comm]
    _ ≤ (2 ^ 196) ^ a := Nat.pow_le_pow_left (by norm_num) a
    _ = 2 ^ (196 * a) := (pow_mul 2 196 a).symm
    _ ≤ 2 ^ (59 * b) := Nat.pow_le_pow_right (by decide) h
    _ = (2 ^ b) ^ 59 := by rw [← pow_mul, Nat.mul_comm]

/-- The 93rd power of two is at most the 28th of ten. -/
theorem two_pow_le_ten_pow {a b : Nat} (h : 28 * a ≤ 93 * b) : 2 ^ a ≤ 10 ^ b := by
  refine (Nat.pow_le_pow_iff_left (n := 28) (by decide)).mp ?_
  calc
    (2 ^ a) ^ 28 = 2 ^ (28 * a) := by rw [← pow_mul, Nat.mul_comm]
    _ ≤ 2 ^ (93 * b) := Nat.pow_le_pow_right (by decide) h
    _ = (2 ^ 93) ^ b := pow_mul 2 93 b
    _ ≤ (10 ^ 28) ^ b := Nat.pow_le_pow_left (by norm_num) b
    _ = (10 ^ b) ^ 28 := by rw [← pow_mul, ← pow_mul, Nat.mul_comm]

/-- A value that reaches a power of two reaches every power of ten that is at most this power. -/
theorem Reaches.reachesTen {num den : Nat} {j k : Int} (h : Reaches num den j)
    (hpow : 10 ^ k.toNat * 2 ^ (-j).toNat ≤ 2 ^ j.toNat * 10 ^ (-k).toNat) :
    ReachesTen num den k := by
  have hpos : 0 < 2 ^ j.toNat * 2 ^ (-j).toNat :=
    Nat.mul_pos (Nat.two_pow_pos _) (Nat.two_pow_pos _)
  refine Nat.le_of_mul_le_mul_right ?_ hpos
  calc
    den * 10 ^ k.toNat * (2 ^ j.toNat * 2 ^ (-j).toNat)
      = den * 2 ^ j.toNat * (10 ^ k.toNat * 2 ^ (-j).toNat) := by ring
    _ ≤ num * 2 ^ (-j).toNat * (2 ^ j.toNat * 10 ^ (-k).toNat) := Nat.mul_le_mul h hpow
    _ = num * 10 ^ (-k).toNat * (2 ^ j.toNat * 2 ^ (-j).toNat) := by ring

/-- The guessed power of ten is too large by at most one. -/
theorem guess_le (bits : Int) (hlow : -1200 ≤ bits) (hhigh : bits ≤ 1200) :
    10 ^ (bits * 30103 / 100000 - 1).toNat * 2 ^ (-(bits - 1)).toNat ≤
      2 ^ (bits - 1).toNat * 10 ^ (-(bits * 30103 / 100000 - 1)).toNat := by
  by_cases hpos : 1 ≤ bits
  · have hexp : (-(bits - 1)).toNat = 0 := by omega
    rw [hexp, pow_zero, Nat.mul_one]
    calc
      10 ^ (bits * 30103 / 100000 - 1).toNat ≤ 2 ^ (bits - 1).toNat :=
        ten_pow_le_two_pow (by omega)
      _ ≤ 2 ^ (bits - 1).toNat * 10 ^ (-(bits * 30103 / 100000 - 1)).toNat :=
        Nat.le_mul_of_pos_right _ (Nat.pos_of_ne_zero (ten_pow_ne_zero _))
  · have hexp : (bits * 30103 / 100000 - 1).toNat = 0 := by omega
    have hexp' : (bits - 1).toNat = 0 := by omega
    rw [hexp, hexp', pow_zero, pow_zero, Nat.one_mul, Nat.one_mul]
    exact two_pow_le_ten_pow (by omega)

/-- The decimal exponent is that of a power of ten that is at most the value. -/
theorem reachesTen_decimalExponent {num den : Nat} (hnum : num ≠ 0) (hlog : num.log2 ≤ 1100)
    (hlog' : den.log2 ≤ 1100) : ReachesTen num den (decimalExponent num den) := by
  have hguess := (reaches_log2 hnum den).reachesTen
    (guess_le ((num.log2 : Int) - den.log2) (by omega) (by omega))
  rw [decimalExponent]
  split
  · exact hguess
  · next hnot =>
      split
      · exact (belowPower_eq_false_iff num den _).mp (Bool.eq_false_iff.mpr hnot)
      · next hnot' => exact (belowPower_eq_false_iff num den _).mp (Bool.eq_false_iff.mpr hnot')

/-! ## The nearest point of a grid -/

theorem onGrid_eq (num den : Nat) (k : Int) :
    onGrid num den k = (num * 10 ^ (-k).toNat, den * 10 ^ k.toNat) := by
  rw [onGrid]
  split
  · next hsign =>
      have hexp : (-k).toNat = 0 := by omega
      rw [hexp, pow_zero, Nat.mul_one, Nat.pow_eq]
  · next hsign =>
      have hexp : k.toNat = 0 := by omega
      rw [hexp, pow_zero, Nat.mul_one, Nat.pow_eq]

/-- On a grid sixteen places below its first digit a value is at least so many points from zero. -/
theorem ReachesTen.le_grid {num den : Nat} {k : Int} (h : ReachesTen num den k) :
    10 ^ 16 * (den * 10 ^ (k - 16).toNat) ≤ num * 10 ^ (-(k - 16)).toNat := by
  refine Nat.le_of_mul_le_mul_right ?_ (Nat.pos_of_ne_zero (ten_pow_ne_zero (-k).toNat))
  have hexp : 16 + (k - 16).toNat + (-k).toNat = k.toNat + (-(k - 16)).toNat := by omega
  calc
    10 ^ 16 * (den * 10 ^ (k - 16).toNat) * 10 ^ (-k).toNat
      = den * 10 ^ (16 + (k - 16).toNat + (-k).toNat) := by ring
    _ = den * 10 ^ k.toNat * 10 ^ (-(k - 16)).toNat := by rw [hexp]; ring
    _ ≤ num * 10 ^ (-k).toNat * 10 ^ (-(k - 16)).toNat := Nat.mul_le_mul_right _ h
    _ = num * 10 ^ (-(k - 16)).toNat * 10 ^ (-k).toNat := by ring

/-- The nearest point of that grid reads as the number. -/
theorem ofDecimal_nearest {m num den : Nat} (h : IsRatio m num den) (hm : m ≤ infiniteMagnitude)
    {k : Int} (hten : ReachesTen num den k) :
    (ofDecimal false (roundHalfEven (num * 10 ^ (-(k - 16)).toNat) (den * 10 ^ (k - 16).toNat))
      (k - 16)).magnitude = m := by
  have hgrid := hten.le_grid
  generalize hexp : (k - 16).toNat = a at hgrid ⊢
  generalize hexp' : (-(k - 16)).toNat = b at hgrid ⊢
  rw [ofDecimal_eq, hexp, hexp', ofRatio]
  have hstep : 0 < den * 10 ^ a :=
    Nat.mul_pos (Nat.pos_of_ne_zero h.den_ne_zero) (Nat.pos_of_ne_zero (ten_pow_ne_zero a))
  obtain ⟨hover, hunder⟩ := roundHalfEven_bounds (num * 10 ^ b) hstep
  generalize roundHalfEven (num * 10 ^ b) (den * 10 ^ a) = c at hover hunder
  -- the value and the point are compared over the denominator of the value
  have hvalue : num * 10 ^ b * 2 ^ 1074 = units m * 10 ^ b * den := by
    rw [Nat.mul_right_comm, h.eq, Nat.mul_right_comm]
  have hunit : 0 < 2 ^ 1074 := pow_pos Nat.two_pos 1074
  refine magnitudeOf_of_near (ten_pow_ne_zero b) hm ?_ ?_ <;>
    generalize 2 ^ 1074 = unit at hvalue hunit ⊢ <;>
    refine Nat.lt_of_mul_lt_mul_right (a := den) ?_
  · calc
      2 ^ 54 * (units m * 10 ^ b) * den = 2 ^ 54 * (num * 10 ^ b) * unit := by
        rw [Nat.mul_assoc, ← hvalue, Nat.mul_assoc (2 ^ 54)]
      _ < (2 ^ 54 * (c * (den * 10 ^ a)) + num * 10 ^ b) * unit :=
        Nat.mul_lt_mul_of_pos_right (by omega) hunit
      _ = (2 ^ 54 * (c * 10 ^ a * unit) + units m * 10 ^ b) * den := by
        rw [Nat.add_mul, hvalue, Nat.add_mul]
        ring
  · calc
      2 ^ 54 * (c * 10 ^ a * unit) * den = 2 ^ 54 * (c * (den * 10 ^ a)) * unit := by ring
      _ < (2 ^ 54 * (num * 10 ^ b) + num * 10 ^ b) * unit :=
        Nat.mul_lt_mul_of_pos_right (by omega) hunit
      _ = (2 ^ 54 * (units m * 10 ^ b) + units m * 10 ^ b) * den := by
        rw [Nat.add_mul, hvalue, Nat.mul_assoc, hvalue, Nat.add_mul, Nat.mul_assoc (2 ^ 54)]

/-! ## The digits that are found -/

/-- What is found on a grid reads as the number. -/
theorem ofDecimal_of_gridPoint? {m num den c : Nat} {k : Int}
    (h : gridPoint? m num den k = some c) : (ofDecimal false c k).magnitude = m := by
  simp only [gridPoint?, beq_iff_eq] at h
  split at h
  · next hlow =>
      split at h
      · next hhigh =>
          obtain rfl := Option.some.inj h
          rcases roundHalfEven_cases (onGrid num den k).1 (onGrid num den k).2 with
            ⟨heq, -⟩ | ⟨heq, -⟩
          · rw [heq, hlow]
          · rw [heq, hhigh]
      · obtain rfl := Option.some.inj h
        exact hlow
  · split at h
    · next hhigh =>
        obtain rfl := Option.some.inj h
        exact hhigh
    · cases h

/-- If the nearest point of a grid reads as the number, one is found. -/
theorem isSome_gridPoint? {m num den : Nat} {k : Int}
    (h : (ofDecimal false (roundHalfEven (onGrid num den k).1 (onGrid num den k).2) k).magnitude =
      m) : (gridPoint? m num den k).isSome = true := by
  simp only [gridPoint?, beq_iff_eq]
  split
  · split <;> rfl
  · next hlow =>
      rcases roundHalfEven_cases (onGrid num den k).1 (onGrid num den k).2 with
        ⟨heq, -⟩ | ⟨heq, -⟩
      · rw [heq] at h
        exact absurd h hlow
      · rw [heq] at h
        rw [if_pos h]
        rfl

/-- The shortest digits of a finite number but zero read as the number. -/
theorem ofDecimal_shortest {d : Double} (h : d.isFinite = true) (hzero : d.isZero = false) :
    ofDecimal d.negative d.shortest.digits d.shortest.exponent = d := by
  have hratio := isRatio_ratio h (by simpa [isZero] using hzero)
  have hten := reachesTen_decimalExponent hratio.num_ne_zero hratio.num_log2 hratio.den_log2
  have hfinite : d.magnitude ≤ infiniteMagnitude := Nat.le_of_lt (of_decide_eq_true h)
  have hlast : (gridPoint? d.magnitude d.ratio.1 d.ratio.2
      (decimalExponent d.ratio.1 d.ratio.2 - (16 : Nat))).isSome = true := by
    apply isSome_gridPoint?
    rw [onGrid_eq]
    exact ofDecimal_nearest hratio hfinite hten
  rw [shortest, ofDecimal_stripped]
  cases hfound : (List.range 17).findSome? fun (places : Nat) =>
      (gridPoint? d.magnitude d.ratio.1 d.ratio.2
        (decimalExponent d.ratio.1 d.ratio.2 - places)).map fun digits =>
          (⟨digits, decimalExponent d.ratio.1 d.ratio.2 - places⟩ : Decimal) with
  | none =>
      have hnone := List.findSome?_eq_none_iff.mp hfound 16 (by decide)
      rw [Option.map_eq_none_iff] at hnone
      rw [hnone] at hlast
      cases hlast
  | some decimal =>
      obtain ⟨places, -, hplace⟩ := List.exists_of_findSome?_eq_some hfound
      obtain ⟨c, hc, rfl⟩ := Option.map_eq_some_iff.mp hplace
      have hreads := ofDecimal_of_gridPoint? hc
      rw [ofDecimal_eq] at hreads ⊢
      exact congrArg (Double.mk d.negative) hreads

end Stepwise.Double
