import Stepwise.Proofs.Json.Spelled
import Stepwise.Yaml.Scalar

/-!
# Number literals as plain scalars

A number literal of JSON is a plain scalar of YAML, and never one of the words that stand for other
values. Where JSON has an integer, YAML has the same one. Elsewhere YAML has the nearest floating
point number, which is finite.
-/

namespace Stepwise.Yaml

open Json (SpelledNumber Literal gather readMagnitude readFraction readExponent)

variable {ds : List Char}

/-! ## Integers -/

/-- Digits that fit in 64 bits are the same number in both notations. -/
theorem readDigits_of_gather : ∀ {ds : List Char}, (∀ c ∈ ds, c.isDigit = true) →
    ∀ {before n : Nat}, gather before ds = (n, []) → readDigits 10 before ds = some n
  | [], _, before, n, h => by
      cases h
      rfl
  | c :: ds, hds, before, n, h => by
      obtain ⟨hc, hothers⟩ := List.forall_mem_cons.mp hds
      simp only [gather] at h
      split at h
      · have hlow : c.toNat - '0'.toNat < 10 := by
          have hbound := (Json.toNat_of_isDigit hc).2
          change c.toNat - 48 < 10
          omega
        simp only [readDigits, digitValue?, hc, if_true, hlow]
        exact readDigits_of_gather hothers h
      · cases h

theorem gather_le : ∀ {ds left : List Char} {before n : Nat}, gather before ds = (n, left) →
    before < Nat.pow 2 64 → n < Nat.pow 2 64
  | [], left, before, n, h, hbefore => by
      cases h
      exact hbefore
  | c :: ds, left, before, n, h, hbefore => by
      simp only [gather] at h
      split at h
      · next hfits => exact gather_le h hfits
      · cases h
        exact hbefore

/-- A literal of an integer has neither a fraction nor a power, and its digits fit. -/
theorem of_number?_int {negative : Bool} {l : Literal} {k : Int}
    (h : l.number? negative = some (.int k)) :
    ∃ n, gather 0 l.whole = (n, []) ∧ l.fraction = none ∧ l.power = none ∧
      (negative = true → n ≠ 0 ∧ n ≤ Nat.pow 2 63) ∧ k = if negative then -(n : Int) else n := by
  unfold Literal.number? at h
  split at h
  next n unread hgather =>
  split at h
  · next hwhole =>
    simp only [Bool.and_eq_true, List.isEmpty_iff, Option.isNone_iff_eq_none] at hwhole
    obtain ⟨⟨rfl, hfraction⟩, hpower⟩ := hwhole
    refine ⟨n, hgather, hfraction, hpower, ?_⟩
    cases negative with
    | true =>
        simp only [if_true] at h ⊢
        split at h
        · cases h
        · next hfits =>
          cases h
          exact ⟨fun _ => ⟨fun hzero => hfits (.inl hzero), Nat.le_of_not_lt fun hlarge =>
            hfits (.inr hlarge)⟩, rfl⟩
    | false =>
        simp only [Bool.false_eq_true, if_false] at h ⊢
        cases h
        exact ⟨fun hfalse => hfalse.elim, rfl⟩
  · simp only [Option.map_eq_some_iff] at h
    obtain ⟨d, -, hother⟩ := h
    cases hother

theorem left_of_readFraction_none {cs left : List Char} (h : readFraction cs = some (none, left)) :
    left = cs := by
  unfold readFraction at h
  split at h
  · obtain ⟨x, -, hx⟩ := Option.map_eq_some_iff.mp h
    cases hx
  · cases h
    rfl

theorem left_of_readExponent_none {cs left : List Char} (h : readExponent cs = some (none, left)) :
    left = cs := by
  unfold readExponent at h
  split at h
  · cases h
    rfl
  · split at h
    · obtain ⟨x, -, hx⟩ := Option.map_eq_some_iff.mp h
      cases hx
    · cases h
      rfl

/-- An integer literal is digits alone that fit in 64 bits. -/
theorem of_readMagnitude_int {negative : Bool} {k : Int} {cs : List Char}
    (h : readMagnitude negative cs = some (.int k, [])) :
    cs ≠ [] ∧ (∀ c ∈ cs, c.isDigit = true) ∧ ¬(cs.head? = some '0' ∧ 1 < cs.length) ∧
      ∃ n, gather 0 cs = (n, []) ∧ (negative = true → n ≠ 0 ∧ n ≤ Nat.pow 2 63) ∧
        k = if negative then -(n : Int) else n := by
  obtain ⟨whole, fraction, power, behind, behind', hwhole, hlead, hfraction, hpower, hnumber⟩ :=
    Json.readMagnitude_eq_some_iff.mp h
  obtain ⟨n, hgather, rfl, rfl, hrange, hk⟩ := of_number?_int hnumber
  obtain ⟨rfl, hne, hdigits⟩ := Json.exists_of_readDigits hwhole
  obtain rfl := left_of_readFraction_none hfraction
  obtain rfl := left_of_readExponent_none hpower
  rw [List.append_nil]
  exact ⟨hne, hdigits, hlead, n, hgather, hrange, hk⟩

/-- Digits announce no radix. -/
theorem radix?_of_isDigit (hds : ∀ c ∈ ds, c.isDigit = true) : radix? ds = none := by
  unfold radix?
  split <;> first | rfl | exact absurd (hds _ (.tail _ (.head _))) (by decide)

theorem startsWithSign_of_isDigit (hds : ∀ c ∈ ds, c.isDigit = true) : startsWithSign ds = false := by
  cases ds with
  | nil => rfl
  | cons c ds =>
      have hc := hds c List.mem_cons_self
      have hne (d : Char) (hd : d.isDigit = false) : (c == d) = false := by
        refine beq_false_of_ne ?_
        rintro rfl
        rw [hd] at hc
        cases hc
      simp only [startsWithSign, isSign, hne '+' (by decide), hne '-' (by decide), Bool.or_self]

theorem isPadded_eq_false {cs : List Char}
    (hcs : (if startsWithSign cs then cs.drop 1 else cs) = ds)
    (hlead : ¬(ds.head? = some '0' ∧ 1 < ds.length)) : isPadded cs = false := by
  unfold isPadded
  rw [hcs]
  split
  · exact absurd ⟨rfl, by simp⟩ hlead
  · rfl

/-! ## Literals as plain scalars -/

/-- Whether a text starts as number literals do. -/
def startsNumber : List Char → Bool
  | '-' :: d :: _ => d.isDigit
  | c :: _ => c.isDigit
  | [] => false

theorem startsNumber_literal (s : SpelledNumber) :
    startsNumber (String.ofList s.literal).toList = true := by
  obtain ⟨sign, d, taken, hliteral, hsign, hd, -⟩ := s.literal_eq
  rw [String.toList_ofList, hliteral]
  rcases hsign with rfl | rfl
  · have hminus : d ≠ '-' := by
      rintro rfl
      cases hd
    unfold startsNumber
    split
    · next heq => exact absurd (List.cons.inj heq).1 hminus
    · next heq => exact (List.cons.inj heq).1 ▸ hd
    · next heq => cases heq
  · exact hd

/-- The words that plain scalars have for other values start as no number literal does. -/
theorem not_mem_of_startsNumber {text : String} (h : startsNumber text.toList = true)
    {words : List String} (hwords : words.all (fun w => !startsNumber w.toList) = true) :
    text ∉ words := by
  intro hmem
  have hother := List.all_eq_true.mp hwords text hmem
  rw [h] at hother
  cases hother

theorem integer?_of_digits {n : Nat} (hne : ds ≠ []) (hds : ∀ c ∈ ds, c.isDigit = true)
    (hlead : ¬(ds.head? = some '0' ∧ 1 < ds.length)) (hgather : gather 0 ds = (n, [])) :
    integer? ds = some (.value n) ∧
      (n ≤ Nat.pow 2 63 → integer? ('-' :: ds) = some (.value (-n))) := by
  have hunpadded : isPadded ds = false :=
    isPadded_eq_false (by rw [startsWithSign_of_isDigit hds]; rfl) hlead
  have hunpadded' : isPadded ('-' :: ds) = false := isPadded_eq_false rfl hlead
  have hdigits : digits? 10 ds = some n := by
    cases ds with
    | nil => exact absurd rfl hne
    | cons c ds => exact readDigits_of_gather hds hgather
  have hplus : withoutPlus ds = ds := by
    unfold withoutPlus
    split
    · exact absurd (hds _ (.head _)) (by decide)
    · rfl
  have hminus : unsigned? ('-' :: ds) = none := rfl
  have hbound : n ≤ Nat.pow 2 64 - 1 := Nat.le_sub_one_of_lt (gather_le hgather (by decide))
  refine ⟨?_, fun hsmall => ?_⟩
  · simp only [integer?, unsigned?, hplus, radix?_of_isDigit hds, startsWithSign_of_isDigit hds,
      hunpadded, Bool.or_self, Bool.false_eq_true, if_false, hdigits,
      fitting, if_pos hbound]
  · simp only [integer?, hminus, negated?, radix?_of_isDigit hds,
      hunpadded', Bool.false_eq_true, if_false, hdigits, Option.bind_some,
      fitting, if_pos hsmall]

/-- A number literal is an integer or a floating point number before it is a text. -/
theorem plain?_literal (s : SpelledNumber) :
    plain? (String.ofList s.literal) =
      match integer? s.literal with
      | some reading => reading.value?
      | none =>
          if isPadded s.literal then some (.str (String.ofList s.literal))
          else
            match float? (String.ofList s.literal) with
            | some d => some (.num (.float d))
            | none => some (.str (String.ofList s.literal)) := by
  have hstarts := startsNumber_literal s
  have hnull : (String.ofList s.literal == "" || isNullText (String.ofList s.literal)) = false := by
    have hwords : String.ofList s.literal ∉ ["", "null", "Null", "NULL", "~"] :=
      not_mem_of_startsNumber hstarts (by decide)
    rw [List.mem_cons, not_or] at hwords
    rw [isNullText, beq_false_of_ne hwords.1, decide_eq_false hwords.2, Bool.or_self]
  have htruth : truth? (String.ofList s.literal) = none := by
    have htrue : String.ofList s.literal ∉ ["true", "True", "TRUE"] :=
      not_mem_of_startsNumber hstarts (by decide)
    have hfalse : String.ofList s.literal ∉ ["false", "False", "FALSE"] :=
      not_mem_of_startsNumber hstarts (by decide)
    rw [truth?, if_neg htrue, if_neg hfalse]
  rw [plain?, hnull, if_neg Bool.false_ne_true, htruth, String.toList_ofList]
  cases integer? s.literal <;> rfl

/-- An integer literal is the same plain scalar. -/
theorem plain?_of_int (s : SpelledNumber) {k : Int} (h : s.number = .int k) :
    plain? (String.ofList s.literal) = some (.num (.int k)) := by
  have hinteger : integer? s.literal = some (.value k) := by
    have hreads := s.reads
    rw [h] at hreads
    by_cases hminus : s.literal.head? = some '-'
    · obtain ⟨digits, hcs⟩ := List.head?_eq_some_iff.mp hminus
      rw [hcs, Json.readNumber_minus] at hreads
      obtain ⟨hne, hds, hlead, n, hgather, hrange, rfl⟩ := of_readMagnitude_int hreads
      rw [hcs]
      exact (integer?_of_digits hne hds hlead hgather).2 (hrange rfl).2
    · rw [Json.readNumber_of_head hminus] at hreads
      obtain ⟨hne, hds, hlead, n, hgather, -, rfl⟩ := of_readMagnitude_int hreads
      exact (integer?_of_digits hne hds hlead hgather).1
  rw [plain?_literal, hinteger]
  rfl

/-- A literal of no integer is the floating point number that is nearest. -/
theorem plain?_of_float? (s : SpelledNumber) (hinteger : integer? s.literal = none)
    (hpadded : isPadded s.literal = false) {d : Double}
    (hfloat : float? (String.ofList s.literal) = some d) :
    plain? (String.ofList s.literal) = some (.num (.float d)) := by
  rw [plain?_literal, hinteger, hpadded, hfloat]
  rfl

/-- A number literal that is a floating point number as a plain scalar is a finite one. -/
theorem isFinite_of_plain? (s : SpelledNumber) {d : Double}
    (h : plain? (String.ofList s.literal) = some (.num (.float d))) : d.isFinite = true := by
  have hfloat : float? (String.ofList s.literal) = some d := by
    rw [plain?_literal] at h
    split at h
    · next reading _ =>
      cases reading <;> cases h
    · split at h
      · cases h
      · split at h
        · next hd =>
          cases h
          exact hd
        · cases h
  have hstarts := startsNumber_literal s
  have hinf : String.ofList s.literal ∉ [".inf", ".Inf", ".INF", "+.inf", "+.Inf", "+.INF"] :=
    not_mem_of_startsNumber hstarts (by decide)
  have hminus : String.ofList s.literal ∉ ["-.inf", "-.Inf", "-.INF"] :=
    not_mem_of_startsNumber hstarts (by decide)
  have hnan : String.ofList s.literal ∉ [".nan", ".NaN", ".NAN"] :=
    not_mem_of_startsNumber hstarts (by decide)
  rw [float?, if_neg hinf, if_neg hminus, if_neg hnan] at hfloat
  exact (Option.filter_eq_some_iff.mp hfloat).2

end Stepwise.Yaml
