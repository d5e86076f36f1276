import Stepwise.Proofs.Number.Rounding

/-!
# Integers as doubles

An integer becomes the nearest one with at most 53 significant bits, a tie going to the even
significand. Up to `2 ^ 53` this is the integer itself; beyond, it is off by at most half of the
unit in its last place, which for a 64 bit integer is at most `2 ^ 10`. The order of two doubles
that were integers is the order of these nearest integers.
-/

namespace Stepwise.Double

/-- The unit in the last place of a natural number with 53 significant bits. -/
def lastPlace (n : Nat) : Nat := 2 ^ (n.log2 - 52)

/-- The natural number with at most 53 significant bits that is nearest. -/
def nearestNat (n : Nat) : Nat := roundHalfEven n (lastPlace n) * lastPlace n

/-- The integer with at most 53 significant bits that is nearest. -/
def nearestInt (n : Int) : Int :=
  if n < 0 then -(nearestNat n.natAbs : Int) else nearestNat n.natAbs

/-- An integer with at most 53 significant bits. -/
def IsShort (n : Int) : Prop := ∃ (s : Int) (k : Nat), s.natAbs ≤ 2 ^ 53 ∧ n = s * 2 ^ k

theorem lastPlace_pos (n : Nat) : 0 < lastPlace n := Nat.two_pow_pos _

theorem lastPlace_of_lt {n : Nat} (h : n < 2 ^ 53) : lastPlace n = 1 := by
  by_cases hn : n = 0
  · subst hn
    rfl
  · have hlog : n.log2 < 53 := (Nat.log2_lt hn).mpr h
    rw [lastPlace, Nat.sub_eq_zero_of_le (by omega), pow_zero]

theorem nearestNat_of_le {n : Nat} (h : n ≤ 2 ^ 53) : nearestNat n = n := by
  rcases Nat.lt_or_eq_of_le h with hlt | rfl
  · have hround := roundHalfEven_mul Nat.one_pos n
    rw [Nat.mul_one] at hround
    rw [nearestNat, lastPlace_of_lt hlt, hround, Nat.mul_one]
  · decide

/-- What a word loses is at most half a unit in its last place. -/
theorem nearestNat_bounds {n : Nat} (h : n ≤ 2 ^ 64) :
    nearestNat n ≤ n + 2 ^ 10 ∧ n ≤ nearestNat n + 2 ^ 10 := by
  rcases Nat.lt_or_eq_of_le h with hlt | rfl
  · have hlog : n.log2 ≤ 63 := by
      by_cases hn : n = 0
      · subst hn
        decide
      · have hlog := (Nat.log2_lt hn).mpr hlt
        omega
    have hunit : lastPlace n ≤ 2 ^ 11 := Nat.pow_le_pow_right (by decide) (by omega)
    have hbounds := roundHalfEven_bounds n (lastPlace_pos n)
    rw [nearestNat]
    omega
  · decide

/-- Every number with few bits that is not below the power of two in front of `n` is a multiple of
the last place of `n`. -/
theorem lastPlace_dvd {n s k : Nat} (hs : s ≤ 2 ^ 53) (h : 2 ^ n.log2 ≤ s * 2 ^ k) :
    lastPlace n ∣ s * 2 ^ k := by
  rcases Nat.lt_or_ge k (n.log2 - 52) with hk | hk
  · -- then the number is that power of two
    have heq : s * 2 ^ k = 2 ^ n.log2 := by
      apply Nat.le_antisymm _ h
      calc
        s * 2 ^ k ≤ 2 ^ 53 * 2 ^ k := Nat.mul_le_mul_right _ hs
        _ = 2 ^ (53 + k) := (pow_add 2 53 k).symm
        _ ≤ 2 ^ n.log2 := Nat.pow_le_pow_right (by decide) (by omega)
    rw [heq]
    exact Nat.pow_dvd_pow 2 (by omega)
  · exact (Nat.pow_dvd_pow 2 hk).mul_left s

/-- No other number with so few bits is nearer. -/
theorem nearestNat_nearest (n : Nat) {s : Nat} (hs : s ≤ 2 ^ 53) (k : Nat) :
    ((n : Int) - nearestNat n).natAbs ≤ ((n : Int) - (s * 2 ^ k : Nat)).natAbs := by
  by_cases hn : n = 0
  · subst hn
    simp [nearestNat_of_le]
  · have hlow : 2 ^ n.log2 ≤ n := Nat.log2_self_le hn
    rcases Nat.lt_or_ge (s * 2 ^ k) (2 ^ n.log2) with hless | hge
    · obtain ⟨j, hj⟩ : lastPlace n ∣ 2 ^ n.log2 := Nat.pow_dvd_pow 2 (Nat.sub_le _ _)
      have hnearest := roundHalfEven_nearest (n := n) (lastPlace_pos n) j
      rw [Nat.mul_comm j, ← hj] at hnearest
      rw [nearestNat]
      omega
    · obtain ⟨j, hj⟩ := lastPlace_dvd hs hge
      rw [hj, Nat.mul_comm (lastPlace n)]
      exact roundHalfEven_nearest (lastPlace_pos n) j

/-! ## The double of an integer -/

theorem inBinade_nat {n : Nat} (hn : n ≠ 0) : InBinade (n * 2 ^ 1074) 1 (n.log2 + 1022) := by
  have hlow : 2 ^ n.log2 ≤ n := Nat.log2_self_le hn
  have hhigh : n < 2 ^ (n.log2 + 1) := Nat.lt_log2_self
  constructor
  · have hsplit : n.log2 + 1022 + 53 = n.log2 + 1 + 1074 := by omega
    rw [Nat.one_mul, hsplit, pow_add]
    exact Nat.mul_lt_mul_of_pos_right hhigh (pow_pos Nat.two_pos 1074)
  · have hsplit : n.log2 + 1022 + 52 = n.log2 + 1074 := by omega
    rw [Nat.one_mul, hsplit, pow_add]
    right
    gcongr

theorem roundHalfEven_nat (n : Nat) :
    roundHalfEven (n * 2 ^ 1074) (1 * 2 ^ (n.log2 + 1022)) * 2 ^ (n.log2 + 1022) =
      nearestNat n * 2 ^ 1074 := by
  rcases Nat.lt_or_ge n.log2 52 with hlog | hlog
  · -- the unit of the binade divides the number
    have hn : nearestNat n = n := by
      have hround := roundHalfEven_mul Nat.one_pos n
      rw [Nat.mul_one] at hround
      rw [nearestNat, lastPlace, Nat.sub_eq_zero_of_le (by omega), pow_zero, hround,
        Nat.mul_one]
    have hsplit : 1074 = 52 - n.log2 + (n.log2 + 1022) := by omega
    rw [hn, Nat.one_mul, congrArg (fun e => n * 2 ^ e) hsplit, pow_add, ← Nat.mul_assoc,
      roundHalfEven_mul (Nat.two_pow_pos _)]
  · have hsplit : n.log2 + 1022 = n.log2 - 52 + 1074 := by omega
    rw [hsplit, pow_add, Nat.one_mul, roundHalfEven_mul_right _ _ (Nat.two_pow_pos 1074),
      ← Nat.mul_assoc, nearestNat, lastPlace]

theorem magnitudeOf_nat_lt {n : Nat} (h : n ≤ 2 ^ 64) : magnitudeOf n 1 < infiniteMagnitude := by
  have hmono : magnitudeOf n 1 ≤ magnitudeOf (2 ^ 64) 1 :=
    magnitudeOf_mono Nat.one_ne_zero Nat.one_ne_zero (by omega)
  exact Nat.lt_of_le_of_lt hmono (by decide +kernel)

/-- A word becomes a double that holds the nearest short number. -/
theorem units_magnitudeOf_nat {n : Nat} (h : n ≤ 2 ^ 64) :
    units (magnitudeOf n 1) = nearestNat n * 2 ^ 1074 := by
  by_cases hn : n = 0
  · subst hn
    rw [nearestNat_of_le (Nat.zero_le _), Nat.zero_mul]
    rfl
  · obtain ⟨p, hp, hunits⟩ := exists_units_magnitudeOf hn Nat.one_ne_zero (magnitudeOf_nat_lt h)
    obtain rfl := (inBinade_nat hn).unique hp
    rw [hunits, roundHalfEven_nat]

/-- Of two words the one with the larger nearest number has the larger magnitude. -/
theorem magnitudeOf_nat_lt_iff {m n : Nat} (hm : m ≤ 2 ^ 64) (hn : n ≤ 2 ^ 64) :
    magnitudeOf m 1 < magnitudeOf n 1 ↔ nearestNat m < nearestNat n := by
  rw [← units_strictMono.lt_iff_lt, units_magnitudeOf_nat hm, units_magnitudeOf_nat hn,
    Nat.mul_lt_mul_right (Nat.two_pow_pos 1074)]

theorem nearestNat_mono {m n : Nat} (hmn : m ≤ n) (hn : n ≤ 2 ^ 64) :
    nearestNat m ≤ nearestNat n := by
  have hmagnitude : magnitudeOf m 1 ≤ magnitudeOf n 1 :=
    magnitudeOf_mono Nat.one_ne_zero Nat.one_ne_zero (by omega)
  have hnot := mt (magnitudeOf_nat_lt_iff hn (Nat.le_trans hmn hn)).mpr (Nat.not_lt.mpr hmagnitude)
  exact Nat.not_lt.mp hnot

/-! ## Signed integers -/

theorem nearestInt_of_le {n : Int} (h : n.natAbs ≤ 2 ^ 53) : nearestInt n = n := by
  rw [nearestInt, nearestNat_of_le h]
  split <;> omega

theorem nearestInt_bounds {n : Int} (h : n.natAbs ≤ 2 ^ 64) :
    nearestInt n ≤ n + 2 ^ 10 ∧ n ≤ nearestInt n + 2 ^ 10 := by
  have hbounds := nearestNat_bounds h
  rw [nearestInt]
  split <;> omega

theorem nearestInt_mono {a b : Int} (ha : a.natAbs ≤ 2 ^ 64) (hb : b.natAbs ≤ 2 ^ 64)
    (hab : a ≤ b) : nearestInt a ≤ nearestInt b := by
  rw [nearestInt, nearestInt]
  by_cases hneg : a < 0
  · by_cases hneg' : b < 0
    · have hmono := nearestNat_mono (m := b.natAbs) (n := a.natAbs) (by omega) ha
      rw [if_pos hneg, if_pos hneg']
      omega
    · rw [if_pos hneg, if_neg hneg']
      omega
  · have hmono := nearestNat_mono (m := a.natAbs) (n := b.natAbs) (by omega) hb
    rw [if_neg hneg, if_neg (by omega)]
    omega

/-- No other short integer is nearer. -/
theorem nearestInt_nearest (n : Int) {m : Int} (hm : IsShort m) :
    (n - nearestInt n).natAbs ≤ (n - m).natAbs := by
  obtain ⟨s, k, hs, rfl⟩ := hm
  have hnearest := nearestNat_nearest n.natAbs hs k
  have hmagnitude : ((s.natAbs * 2 ^ k : Nat) : Int) = (s * 2 ^ k).natAbs := by
    rw [Int.natAbs_mul, Int.natAbs_pow]
    rfl
  rw [hmagnitude] at hnearest
  rw [nearestInt]
  split <;> omega

theorem ofInt_isNaN (n : Int) : (ofInt n).isNaN = false := by
  have hle := magnitudeOf_le n.natAbs 1
  exact decide_eq_false (Nat.not_lt.mpr hle)

/-- Doubles that were words stand in the order of the nearest short integers. -/
theorem compare?_ofInt {a b : Int} (ha : a.natAbs ≤ 2 ^ 64) (hb : b.natAbs ≤ 2 ^ 64) :
    (ofInt a).compare? (ofInt b) = some (compare (nearestInt a) (nearestInt b)) := by
  have hlt := magnitudeOf_nat_lt_iff ha hb
  have hgt := magnitudeOf_nat_lt_iff hb ha
  have hzero (n : Nat) (hn : n ≤ 2 ^ 64) : 0 < magnitudeOf n 1 ↔ 0 < nearestNat n :=
    magnitudeOf_nat_lt_iff (Nat.zero_le _) hn
  have hazero := hzero _ ha
  have hbzero := hzero _ hb
  have hless : (ofInt a).key < (ofInt b).key ↔ nearestInt a < nearestInt b := by
    simp only [key, ofInt, ofRatio, nearestInt, decide_eq_true_eq]
    split <;> split <;> omega
  have hsame : (ofInt a).key = (ofInt b).key ↔ nearestInt a = nearestInt b := by
    simp only [key, ofInt, ofRatio, nearestInt, decide_eq_true_eq]
    split <;> split <;> omega
  simp only [compare?, ofInt_isNaN, Bool.or_self, Bool.false_eq_true, if_false, compare,
    compareOfLessAndEq, hless, hsame]

end Stepwise.Double
