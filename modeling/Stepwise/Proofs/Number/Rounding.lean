import Mathlib.Tactic.Ring
import Mathlib.Order.Monotone.Defs
import Stepwise.Number.Double

/-!
# Rounding to double precision

The exact absolute value of a number is counted in units of the least positive one, `2 ^ -1074`. It
grows with the magnitude, so the order of magnitudes is the order of values. A quotient is rounded
within its binade: its value lies between the `2 ^ 52`-fold and the `2 ^ 53`-fold of one step, the
number of steps is rounded to the nearest integer, and the result is the magnitude that holds so
many steps. Rounding is monotone, and it leaves every value that is held exactly as it is.
-/

namespace Stepwise.Double

/-! ## Exact values -/

/-- The exact absolute value of a magnitude in units of `2 ^ -1074`. -/
def units (magnitude : Nat) : Nat :=
  if magnitude < 2 ^ 52 then magnitude
  else (magnitude % 2 ^ 52 + 2 ^ 52) * 2 ^ (magnitude / 2 ^ 52 - 1)

/-- A magnitude as the binade it lies in and the number of steps in it. -/
structure IsSteps (magnitude binade steps : Nat) : Prop where
  eq : magnitude = binade * 2 ^ 52 + steps
  le : steps ≤ 2 ^ 53
  normal : binade = 0 ∨ 2 ^ 52 ≤ steps

theorem IsSteps.units_eq {m p s : Nat} (h : IsSteps m p s) : units m = s * 2 ^ p := by
  obtain ⟨rfl, hle, hnormal⟩ := h
  rcases Nat.lt_or_ge s (2 ^ 52) with hsmall | hlarge
  · obtain rfl : p = 0 := hnormal.resolve_right (Nat.not_le_of_lt hsmall)
    rw [Nat.zero_mul, Nat.zero_add, Nat.pow_zero, Nat.mul_one, units, if_pos hsmall]
  · have hbig : ¬p * 2 ^ 52 + s < 2 ^ 52 := by omega
    rcases Nat.lt_or_ge s (2 ^ 53) with hs | hs
    · have hdiv : (p * 2 ^ 52 + s) / 2 ^ 52 = p + 1 := by omega
      have hmod : (p * 2 ^ 52 + s) % 2 ^ 52 = s - 2 ^ 52 := by omega
      rw [units, if_neg hbig, hdiv, hmod, Nat.sub_add_cancel hlarge, Nat.add_sub_cancel]
    · -- a full binade is the first step of the next one
      obtain rfl : s = 2 ^ 53 := Nat.le_antisymm hle hs
      have hdiv : (p * 2 ^ 52 + 2 ^ 53) / 2 ^ 52 = p + 2 := by omega
      have hmod : (p * 2 ^ 52 + 2 ^ 53) % 2 ^ 52 = 0 := by omega
      rw [units, if_neg hbig, hdiv, hmod, Nat.zero_add, Nat.add_sub_assoc (by decide)]
      ring

/-- Every magnitude lies in a binade that it does not fill. -/
theorem exists_steps (m : Nat) : ∃ p s, IsSteps m p s ∧ s < 2 ^ 53 := by
  rcases Nat.lt_or_ge m (2 ^ 52) with hsmall | hlarge
  · exact ⟨0, m, ⟨by omega, by omega, Or.inl rfl⟩, by omega⟩
  · exact ⟨m / 2 ^ 52 - 1, m % 2 ^ 52 + 2 ^ 52, ⟨by omega, by omega, Or.inr (by omega)⟩, by omega⟩

/-- The first step of a binade is what fills the one below. -/
theorem IsSteps.full_below {m p : Nat} (h : IsSteps m p (2 ^ 52)) (hp : p ≠ 0) :
    IsSteps m (p - 1) (2 ^ 53) := by
  obtain ⟨k, rfl⟩ := Nat.exists_eq_add_one_of_ne_zero hp
  refine ⟨?_, Nat.le_refl _, Or.inr (by decide)⟩
  rw [h.eq, Nat.add_one_sub_one]
  ring

/-- What does not fill its binade lies below all of the next ones. -/
theorem steps_lt_steps {p q s t : Nat} (hs : s < 2 ^ 53) (hpq : p < q) (ht : 2 ^ 52 ≤ t) :
    s * 2 ^ p < t * 2 ^ q := by
  calc
    s * 2 ^ p < 2 ^ 53 * 2 ^ p := Nat.mul_lt_mul_of_pos_right hs (Nat.two_pow_pos p)
    _ = 2 ^ 52 * 2 ^ (p + 1) := by ring
    _ ≤ 2 ^ 52 * 2 ^ q := Nat.mul_le_mul_left _ (Nat.pow_le_pow_right (by decide) hpq)
    _ ≤ t * 2 ^ q := Nat.mul_le_mul_right _ ht

/-- The value grows with the magnitude. -/
theorem units_strictMono : StrictMono units := by
  intro m n hmn
  obtain ⟨p, s, hm, hs⟩ := exists_steps m
  obtain ⟨q, t, hn, ht⟩ := exists_steps n
  rw [hm.units_eq, hn.units_eq]
  have hmeq := hm.eq
  have hneq := hn.eq
  rcases Nat.lt_trichotomy p q with hpq | rfl | hqp
  · exact steps_lt_steps hs hpq (hn.normal.resolve_left (by omega))
  · exact Nat.mul_lt_mul_of_pos_right (by omega) (Nat.two_pow_pos p)
  · have hnormal := hm.normal.resolve_left (by omega)
    omega

/-! ## Nearest integers -/

theorem roundHalfEven_cases (n d : Nat) :
    (roundHalfEven n d = n / d ∧ 2 * (n % d) ≤ d) ∨
      (roundHalfEven n d = n / d + 1 ∧ d ≤ 2 * (n % d)) := by
  rw [roundHalfEven]
  split
  · exact Or.inl ⟨rfl, by omega⟩
  · split
    · exact Or.inr ⟨rfl, by omega⟩
    · split
      · exact Or.inl ⟨rfl, by omega⟩
      · exact Or.inr ⟨rfl, by omega⟩

/-- The rounded quotient is off by at most one half. -/
theorem roundHalfEven_bounds (n : Nat) {d : Nat} (hd : 0 < d) :
    2 * (roundHalfEven n d * d) ≤ 2 * n + d ∧ 2 * n ≤ 2 * (roundHalfEven n d * d) + d := by
  have hsplit : n / d * d + n % d = n := Nat.div_add_mod' n d
  have hmod : n % d < d := Nat.mod_lt n hd
  rcases roundHalfEven_cases n d with ⟨h, hhalf⟩ | ⟨h, hhalf⟩
  · rw [h]
    omega
  · rw [h, Nat.add_one_mul (n / d) d]
    omega

theorem roundHalfEven_mono {m n : Nat} (h : m ≤ n) (d : Nat) :
    roundHalfEven m d ≤ roundHalfEven n d := by
  have hdiv : m / d ≤ n / d := Nat.div_le_div_right h
  rcases Nat.lt_or_eq_of_le hdiv with hlt | heq
  · rcases roundHalfEven_cases m d with ⟨hm, -⟩ | ⟨hm, -⟩ <;>
      rcases roundHalfEven_cases n d with ⟨hn, -⟩ | ⟨hn, -⟩ <;> omega
  · -- with one whole part in common only the remainders decide
    have hmod : m % d ≤ n % d := by
      have hm := Nat.div_add_mod' m d
      have hn := Nat.div_add_mod' n d
      rw [heq] at hm
      omega
    rcases Nat.lt_or_eq_of_le hmod with hless | hsame
    · rcases roundHalfEven_cases m d with ⟨hm, -⟩ | ⟨hm, hhalf⟩
      · rcases roundHalfEven_cases n d with ⟨hn, -⟩ | ⟨hn, -⟩ <;> omega
      · have hover : d < 2 * (n % d) := by omega
        have hnotunder : ¬2 * (n % d) < d := by omega
        have hn : roundHalfEven n d = n / d + 1 := by
          rw [roundHalfEven, if_neg hnotunder, if_pos hover]
        omega
    · rw [roundHalfEven, roundHalfEven, heq, hsame]

theorem roundHalfEven_mul_right (n d : Nat) {c : Nat} (hc : 0 < c) :
    roundHalfEven (n * c) (d * c) = roundHalfEven n d := by
  have hleft : 2 * (n % d * c) < d * c ↔ 2 * (n % d) < d := by
    rw [← Nat.mul_assoc]
    exact Nat.mul_lt_mul_right hc
  have hright : d * c < 2 * (n % d * c) ↔ d < 2 * (n % d) := by
    rw [← Nat.mul_assoc]
    exact Nat.mul_lt_mul_right hc
  simp only [roundHalfEven, Nat.mul_div_mul_right _ _ hc, Nat.mul_mod_mul_right, hleft, hright]

/-- What is off by less than one half from an integer is rounded to it. -/
theorem roundHalfEven_of_near {n d k : Nat} (hlow : 2 * (k * d) < 2 * n + d)
    (hhigh : 2 * n < 2 * (k * d) + d) : roundHalfEven n d = k := by
  have hd : 0 < d := by
    by_contra hzero
    simp only [Nat.eq_zero_of_not_pos hzero, Nat.mul_zero, Nat.add_zero] at hlow hhigh
    omega
  obtain ⟨hover, hunder⟩ := roundHalfEven_bounds n hd
  apply Nat.le_antisymm
  · have hless : roundHalfEven n d * d < (k + 1) * d := by
      rw [Nat.add_one_mul]
      omega
    exact Nat.le_of_lt_succ (Nat.lt_of_mul_lt_mul_right hless)
  · have hless : k * d < (roundHalfEven n d + 1) * d := by
      rw [Nat.add_one_mul]
      omega
    exact Nat.le_of_lt_succ (Nat.lt_of_mul_lt_mul_right hless)

/-- Whole multiples are not changed. -/
theorem roundHalfEven_mul {d : Nat} (hd : 0 < d) (k : Nat) : roundHalfEven (k * d) d = k := by
  simp [roundHalfEven, Nat.mul_div_cancel _ hd, hd]

/-- No other multiple is nearer than the rounded one. -/
theorem roundHalfEven_nearest {n d : Nat} (hd : 0 < d) (k : Nat) :
    ((n : Int) - (roundHalfEven n d * d : Nat)).natAbs ≤ ((n : Int) - (k * d : Nat)).natAbs := by
  have hsplit : n / d * d + n % d = n := Nat.div_add_mod' n d
  have hmod : n % d < d := Nat.mod_lt n hd
  have hside : k * d ≤ n / d * d ∨ n / d * d + d ≤ k * d := by
    rcases Nat.lt_or_ge (n / d) k with h | h
    · have hle := Nat.mul_le_mul_right d h
      rw [Nat.succ_mul] at hle
      exact Or.inr hle
    · exact Or.inl (Nat.mul_le_mul_right d h)
  rcases roundHalfEven_cases n d with ⟨h, hhalf⟩ | ⟨h, hhalf⟩
  · rw [h]
    omega
  · rw [h, Nat.add_one_mul]
    omega

/-! ## The binade of a quotient -/

/-- The value `num / den` lies in a binade, or below all of them. -/
structure InBinade (num den p : Nat) : Prop where
  lt : num < den * 2 ^ (p + 53)
  le : p = 0 ∨ den * 2 ^ (p + 52) ≤ num

theorem InBinade.le_of_le {num den num' den' p q : Nat} (h : InBinade num den p)
    (h' : InBinade num' den' q) (hle : num * den' ≤ num' * den) : p ≤ q := by
  rcases h.le with rfl | hlow
  · exact Nat.zero_le q
  · by_contra hqp
    have hden : 0 < den' := by
      by_contra hzero
      have hlt := h'.lt
      simp [Nat.eq_zero_of_not_pos hzero] at hlt
    have hnum : 0 < den := by
      by_contra hzero
      have hlt := h.lt
      simp [Nat.eq_zero_of_not_pos hzero] at hlt
    have hpow : 2 ^ (q + 53) ≤ 2 ^ (p + 52) := Nat.pow_le_pow_right (by decide) (by omega)
    have hless : num' * den < num' * den := by
      calc
        num' * den < den' * 2 ^ (q + 53) * den := Nat.mul_lt_mul_of_pos_right h'.lt hnum
        _ ≤ den' * 2 ^ (p + 52) * den := Nat.mul_le_mul_right _ (Nat.mul_le_mul_left _ hpow)
        _ = den * 2 ^ (p + 52) * den' := by ring
        _ ≤ num * den' := Nat.mul_le_mul_right _ hlow
        _ ≤ num' * den := hle
    exact Nat.lt_irrefl _ hless

theorem InBinade.unique {num den p q : Nat} (h : InBinade num den p) (h' : InBinade num den q) :
    p = q :=
  Nat.le_antisymm (h.le_of_le h' (Nat.le_refl _)) (h'.le_of_le h (Nat.le_refl _))

/-- A value in a binade is rounded to a number of steps in it. -/
theorem InBinade.steps_bounds {num den p : Nat} (h : InBinade num den p) :
    roundHalfEven num (den * 2 ^ p) ≤ 2 ^ 53 ∧
      (p = 0 ∨ 2 ^ 52 ≤ roundHalfEven num (den * 2 ^ p)) := by
  have hden : 0 < den := by
    by_contra hzero
    have hlt := h.lt
    simp [Nat.eq_zero_of_not_pos hzero] at hlt
  have hstep : 0 < den * 2 ^ p := Nat.mul_pos hden (Nat.two_pow_pos p)
  constructor
  · have hle : num ≤ 2 ^ 53 * (den * 2 ^ p) := by
      apply Nat.le_of_lt
      calc
        num < den * 2 ^ (p + 53) := h.lt
        _ = 2 ^ 53 * (den * 2 ^ p) := by ring
    simpa only [roundHalfEven_mul hstep] using roundHalfEven_mono hle (den * 2 ^ p)
  · refine h.le.imp id fun hlow => ?_
    have hle : 2 ^ 52 * (den * 2 ^ p) ≤ num := by
      calc
        2 ^ 52 * (den * 2 ^ p) = den * 2 ^ (p + 52) := by ring
        _ ≤ num := hlow
    simpa only [roundHalfEven_mul hstep] using roundHalfEven_mono hle (den * 2 ^ p)

/-! ## The exponent of a quotient -/

/-- The value `num / den` is at least the power of two with this exponent. -/
def Reaches (num den : Nat) (k : Int) : Prop := den * 2 ^ k.toNat ≤ num * 2 ^ (-k).toNat

/-- A power with a negative exponent is taken to the other side, and so is any other power. -/
theorem reaches_iff (num den : Nat) (k : Int) {c : Nat} (h : 0 ≤ c + k) :
    Reaches num den k ↔ den * 2 ^ (c + k).toNat ≤ num * 2 ^ c := by
  have hleft : (c + k).toNat + (-k).toNat = k.toNat + c := by omega
  have hpos : 0 < 2 ^ (-k).toNat := Nat.two_pow_pos _
  have hpos' : 0 < 2 ^ c := Nat.two_pow_pos c
  calc
    Reaches num den k ↔ den * 2 ^ k.toNat * 2 ^ c ≤ num * 2 ^ (-k).toNat * 2 ^ c :=
      (Nat.mul_le_mul_right_iff hpos').symm
    _ ↔ den * 2 ^ (c + k).toNat * 2 ^ (-k).toNat ≤ num * 2 ^ c * 2 ^ (-k).toNat := by
      rw [Nat.mul_assoc den, ← Nat.pow_add, ← hleft, Nat.pow_add, ← Nat.mul_assoc den,
        Nat.mul_right_comm num]
    _ ↔ den * 2 ^ (c + k).toNat ≤ num * 2 ^ c := Nat.mul_le_mul_right_iff hpos

theorem Reaches.mono {num den : Nat} {j k : Int} (h : Reaches num den k) (hjk : j ≤ k) :
    Reaches num den j := by
  have hj : 0 ≤ ((j.natAbs + k.natAbs : Nat) : Int) + j := by omega
  have hk : 0 ≤ ((j.natAbs + k.natAbs : Nat) : Int) + k := by omega
  rw [reaches_iff num den k hk] at h
  rw [reaches_iff num den j hj]
  refine Nat.le_trans (Nat.mul_le_mul_left _ (Nat.pow_le_pow_right (by decide) ?_)) h
  omega

theorem reaches_log2 {num : Nat} (hnum : num ≠ 0) (den : Nat) :
    Reaches num den ((num.log2 : Int) - den.log2 - 1) := by
  have hexp : (((den.log2 + 1 : Nat) : Int) + ((num.log2 : Int) - den.log2 - 1)).toNat =
      num.log2 := by omega
  rw [reaches_iff num den _ (by omega : 0 ≤ ((den.log2 + 1 : Nat) : Int) + _), hexp, Nat.mul_comm]
  exact Nat.mul_le_mul (Nat.log2_self_le hnum) (Nat.le_of_lt Nat.lt_log2_self)

theorem not_reaches_log2 (num : Nat) {den : Nat} (hden : den ≠ 0) :
    ¬Reaches num den ((num.log2 : Int) - den.log2 + 1) := by
  have hexp : ((den.log2 : Int) + ((num.log2 : Int) - den.log2 + 1)).toNat = num.log2 + 1 := by
    omega
  rw [reaches_iff num den _ (by omega : 0 ≤ (den.log2 : Int) + _), hexp, Nat.not_le]
  calc
    num * 2 ^ den.log2 < 2 ^ (num.log2 + 1) * 2 ^ den.log2 :=
      Nat.mul_lt_mul_of_pos_right Nat.lt_log2_self (Nat.two_pow_pos _)
    _ ≤ 2 ^ (num.log2 + 1) * den := Nat.mul_le_mul_left _ (Nat.log2_self_le hden)
    _ = den * 2 ^ (num.log2 + 1) := Nat.mul_comm _ _

/-- A shifted quotient has 53 bits just when the value reaches the power of two at their top. -/
theorem shifted_div_lt_iff (num : Nat) {den : Nat} (hden : den ≠ 0) (q : Int) :
    (shifted num den q).1 / (shifted num den q).2 < 2 ^ 52 ↔ ¬Reaches num den (q + 52) := by
  rw [← not_iff_not, not_not, Nat.not_lt, shifted]
  by_cases hq : 0 ≤ q
  · have hexp : ((0 : Nat) + (q + 52)).toNat = q.toNat + 52 := by omega
    have hpos : 0 < den * 2 ^ q.toNat :=
      Nat.mul_pos (Nat.pos_of_ne_zero hden) (Nat.two_pow_pos _)
    rw [if_pos hq, reaches_iff num den _ (by omega : 0 ≤ ((0 : Nat) : Int) + _), hexp]
    simp only [Nat.pow_eq, Nat.le_div_iff_mul_le hpos, Nat.pow_zero, Nat.mul_one, Nat.pow_add]
    rw [Nat.mul_comm (2 ^ 52), Nat.mul_assoc]
  · have hexp : (((-q).toNat : Int) + (q + 52)).toNat = 52 := by omega
    rw [if_neg hq, reaches_iff num den _ (by omega : 0 ≤ ((-q).toNat : Int) + _), hexp]
    simp only [Nat.pow_eq, Nat.le_div_iff_mul_le (Nat.pos_of_ne_zero hden), Nat.mul_comm (2 ^ 52)]

/-- The exponent is that of the binade of the value in units of `2 ^ -1074`. -/
theorem inBinade_exponentOf {num den : Nat} (hnum : num ≠ 0) (hden : den ≠ 0) :
    -1074 ≤ exponentOf num den ∧
      InBinade (num * 2 ^ 1074) den (exponentOf num den + 1074).toNat := by
  obtain ⟨q, hq, hlow, hhigh⟩ : ∃ q, exponentOf num den = max q (-1074) ∧
      Reaches num den (q + 52) ∧ ¬Reaches num den (q + 53) := by
    have hguess := shifted_div_lt_iff num hden ((num.log2 : Int) - den.log2 - 52)
    have hlog := reaches_log2 hnum den
    have hnotlog := not_reaches_log2 num hden
    by_cases hsmall : Reaches num den ((num.log2 : Int) - den.log2 - 52 + 52)
    · refine ⟨(num.log2 : Int) - den.log2 - 52, ?_, hsmall, ?_⟩
      · have hlarge := mt hguess.mp (not_not_intro hsmall)
        simp only [exponentOf, Nat.pow_eq, if_neg hlarge]
      · refine mt (fun h => ?_) hnotlog
        exact h.mono (by omega)
    · refine ⟨(num.log2 : Int) - den.log2 - 52 - 1, ?_, hlog.mono (by omega), ?_⟩
      · simp only [exponentOf, Nat.pow_eq, if_pos (hguess.mpr hsmall)]
      · refine mt (fun h => ?_) hsmall
        exact h.mono (by omega)
  rw [hq]
  refine ⟨by omega, ?_, ?_⟩
  · have hexp : (((1074 : Nat) : Int) + (max q (-1074) + 53)).toNat =
        (max q (-1074) + 1074).toNat + 53 := by omega
    have hnot : ¬Reaches num den (max q (-1074) + 53) := mt (fun h => h.mono (by omega)) hhigh
    rw [reaches_iff num den _ (by omega : 0 ≤ ((1074 : Nat) : Int) + _), hexp] at hnot
    exact Nat.lt_of_not_le hnot
  · by_cases hmin : q ≤ -1074
    · exact Or.inl (by omega)
    · have hexp : (((1074 : Nat) : Int) + (q + 52)).toNat =
          (max q (-1074) + 1074).toNat + 52 := by omega
      rw [reaches_iff num den _ (by omega : 0 ≤ ((1074 : Nat) : Int) + _), hexp] at hlow
      exact Or.inr hlow

/-! ## The rounded quotient -/

theorem roundHalfEven_shifted (num den : Nat) {q : Int} (hq : -1074 ≤ q) :
    roundHalfEven (shifted num den q).1 (shifted num den q).2 =
      roundHalfEven (num * 2 ^ 1074) (den * 2 ^ (q + 1074).toNat) := by
  rw [shifted]
  by_cases hsign : 0 ≤ q
  · have hexp : (q + 1074).toNat = q.toNat + 1074 := by omega
    rw [if_pos hsign, Nat.pow_eq, hexp, Nat.pow_add, ← Nat.mul_assoc,
      roundHalfEven_mul_right _ _ (Nat.two_pow_pos 1074)]
  · have hexp : 1074 = (-q).toNat + (q + 1074).toNat := by omega
    rw [if_neg hsign, Nat.pow_eq, congrArg (fun e => num * 2 ^ e) hexp, Nat.pow_add,
      ← Nat.mul_assoc, roundHalfEven_mul_right _ _ (Nat.two_pow_pos _)]

/-- A quotient is rounded to a number of steps in its binade. -/
theorem exists_magnitudeOf {num den : Nat} (hnum : num ≠ 0) (hden : den ≠ 0) :
    ∃ p, InBinade (num * 2 ^ 1074) den p ∧
      magnitudeOf num den =
        min (p * 2 ^ 52 + roundHalfEven (num * 2 ^ 1074) (den * 2 ^ p)) infiniteMagnitude := by
  obtain ⟨hmin, hbinade⟩ := inBinade_exponentOf hnum hden
  refine ⟨_, hbinade, ?_⟩
  rw [← roundHalfEven_shifted num den hmin]
  simp only [magnitudeOf, if_neg hnum, Nat.pow_eq]

/-- Rounding is monotone. -/
theorem magnitudeOf_mono {num den num' den' : Nat} (hden : den ≠ 0) (hden' : den' ≠ 0)
    (h : num * den' ≤ num' * den) : magnitudeOf num den ≤ magnitudeOf num' den' := by
  by_cases hnum : num = 0
  · simp [magnitudeOf, hnum]
  · have hnum' : num' ≠ 0 := by
      rintro rfl
      rw [Nat.zero_mul, Nat.le_zero, Nat.mul_eq_zero] at h
      exact h.elim hnum hden'
    have hscaled : num * 2 ^ 1074 * den' ≤ num' * 2 ^ 1074 * den := by
      rw [Nat.mul_right_comm, Nat.mul_right_comm num']
      exact Nat.mul_le_mul_right _ h
    obtain ⟨p, hp, hmagnitude⟩ := exists_magnitudeOf hnum hden
    obtain ⟨q, hq, hmagnitude'⟩ := exists_magnitudeOf hnum' hden'
    have hpq : p ≤ q := hp.le_of_le hq hscaled
    rw [hmagnitude, hmagnitude']
    refine Nat.le_min.mpr ⟨Nat.le_trans (Nat.min_le_left _ _) ?_, Nat.min_le_right _ _⟩
    rcases Nat.lt_or_eq_of_le hpq with hlt | rfl
    · have hle := hp.steps_bounds.1
      have hge := hq.steps_bounds.2.resolve_left (by omega)
      omega
    · -- in one binade the numbers of steps are compared over a common denominator
      have hsteps : roundHalfEven (num * 2 ^ 1074 * den') (den * 2 ^ p * den') ≤
          roundHalfEven (num' * 2 ^ 1074 * den) (den * 2 ^ p * den') :=
        roundHalfEven_mono hscaled _
      have hcommon : den * 2 ^ p * den' = den' * 2 ^ p * den := by ring
      rw [roundHalfEven_mul_right _ _ (Nat.pos_of_ne_zero hden'), hcommon,
        roundHalfEven_mul_right _ _ (Nat.pos_of_ne_zero hden)] at hsteps
      exact Nat.add_le_add_left hsteps _

theorem magnitudeOf_le (num den : Nat) : magnitudeOf num den ≤ infiniteMagnitude := by
  rw [magnitudeOf]
  split
  · exact Nat.zero_le _
  · exact Nat.min_le_right _ _

/-- A value that is rounded to a number of steps in its binade becomes what holds so many steps. -/
theorem magnitudeOf_of_steps {num den m p s : Nat} (hnum : num ≠ 0) (hden : den ≠ 0)
    (hm : m ≤ infiniteMagnitude) (hsteps : IsSteps m p s)
    (hbinade : InBinade (num * 2 ^ 1074) den p)
    (hround : roundHalfEven (num * 2 ^ 1074) (den * 2 ^ p) = s) : magnitudeOf num den = m := by
  obtain ⟨q, hq, hmagnitude⟩ := exists_magnitudeOf hnum hden
  obtain rfl := hbinade.unique hq
  rw [hmagnitude, hround, ← hsteps.eq, Nat.min_eq_left hm]

/-- What is off by less than the `2 ^ 54`th part from a value that is held exactly is rounded to it:
the part is less than half a step, also in the binade below a power of two. -/
theorem magnitudeOf_of_near {num den m : Nat} (hden : den ≠ 0) (hm : m ≤ infiniteMagnitude)
    (hlow : 2 ^ 54 * (units m * den) < 2 ^ 54 * (num * 2 ^ 1074) + units m * den)
    (hhigh : 2 ^ 54 * (num * 2 ^ 1074) < 2 ^ 54 * (units m * den) + units m * den) :
    magnitudeOf num den = m := by
  obtain ⟨p, s, hsteps, hs⟩ := exists_steps m
  have hnum : num ≠ 0 := by
    rintro rfl
    omega
  have hvalue : units m * den = s * (den * 2 ^ p) := by
    rw [hsteps.units_eq]
    ring
  have hstep : den * 2 ^ (p + 53) = 2 ^ 53 * (den * 2 ^ p) := by ring
  have hstep' : den * 2 ^ (p + 52) = 2 ^ 52 * (den * 2 ^ p) := by ring
  have hbelow : s * (den * 2 ^ p) ≤ (2 ^ 53 - 1) * (den * 2 ^ p) :=
    Nat.mul_le_mul_right _ (Nat.le_sub_one_of_lt hs)
  rw [hvalue] at hlow hhigh
  by_cases hless : p ≠ 0 ∧ num * 2 ^ 1074 < 2 ^ 52 * (den * 2 ^ p)
  · -- then the exact value is the least one of its binade, and the full one of the binade below
    obtain ⟨hp, hless⟩ := hless
    have hs52 : s = 2 ^ 52 := by
      refine Nat.le_antisymm (Nat.not_lt.mp fun hlarge => ?_) (hsteps.normal.resolve_left hp)
      have habove : (2 ^ 52 + 1) * (den * 2 ^ p) ≤ s * (den * 2 ^ p) :=
        Nat.mul_le_mul_right _ hlarge
      omega
    have hhalf : den * 2 ^ p = 2 * (den * 2 ^ (p - 1)) := by
      obtain ⟨k, rfl⟩ := Nat.exists_eq_succ_of_ne_zero hp
      rw [Nat.succ_sub_one, Nat.pow_succ]
      ring
    have hfull : den * 2 ^ (p - 1 + 53) = 2 ^ 53 * (den * 2 ^ (p - 1)) := by ring
    have hfull' : den * 2 ^ (p - 1 + 52) = 2 ^ 52 * (den * 2 ^ (p - 1)) := by ring
    rw [hs52, hhalf] at hlow hhigh
    rw [hhalf] at hless
    rw [hs52] at hsteps
    refine magnitudeOf_of_steps hnum hden hm (hsteps.full_below hp)
      ⟨by omega, Or.inr (by omega)⟩ ?_
    exact roundHalfEven_of_near (by omega) (by omega)
  · have hbinade : p = 0 ∨ den * 2 ^ (p + 52) ≤ num * 2 ^ 1074 := by
      rw [hstep']
      omega
    refine magnitudeOf_of_steps hnum hden hm hsteps ⟨by omega, hbinade⟩ ?_
    exact roundHalfEven_of_near (by omega) (by omega)

/-- Below the range's end the result holds the rounded number of steps. -/
theorem exists_units_magnitudeOf {num den : Nat} (hnum : num ≠ 0) (hden : den ≠ 0)
    (hfinite : magnitudeOf num den < infiniteMagnitude) :
    ∃ p, InBinade (num * 2 ^ 1074) den p ∧
      units (magnitudeOf num den) =
        roundHalfEven (num * 2 ^ 1074) (den * 2 ^ p) * 2 ^ p := by
  obtain ⟨p, hp, hmagnitude⟩ := exists_magnitudeOf hnum hden
  obtain ⟨hle, hnormal⟩ := hp.steps_bounds
  refine ⟨p, hp, IsSteps.units_eq ⟨?_, hle, hnormal⟩⟩
  rw [hmagnitude] at hfinite ⊢
  exact Nat.min_eq_left (by omega)

end Stepwise.Double
