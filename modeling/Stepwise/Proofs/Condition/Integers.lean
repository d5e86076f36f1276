import Stepwise.Proofs.Condition.Order
import Stepwise.Proofs.Number.Integers
import Stepwise.Proofs.Run.RecordLookup

/-!
# Comparing integers

Two integers are compared by the doubles nearest to them, so an operator says of them what it says
of the nearest integers with at most 53 significant bits. An order is never turned round, but two
integers beyond `2 ^ 53` that are close together can come out as equal, and a condition that asks
for one of them then finds a record that holds the other.
-/

namespace Stepwise

/-- An integer of 64 bits, signed or unsigned. -/
def IsWord (n : Int) : Prop := -(2 ^ 63) ≤ n ∧ n < 2 ^ 64

theorem IsWord.natAbs_le {n : Int} (h : IsWord n) : n.natAbs ≤ 2 ^ 64 := by
  obtain ⟨hlow, hhigh⟩ := h
  omega

namespace Operator

/-- What an operator says of two numbers in this order. -/
def accepts : Operator → Ordering → Bool
  | equal, order => order == .eq
  | notEqual, order => order != .eq
  | greater, order => order == .gt
  | greaterOrEqual, order => order != .lt
  | less, order => order == .lt
  | lessOrEqual, order => order != .gt
  | contains, _ => false

/-- Every operator asks of two numbers only their order. -/
theorem holds_of_compare? {m n : Number} {order : Ordering}
    (h : m.toDouble.compare? n.toDouble = some order) (operator : Operator) :
    operator.holds (.num m) (.num n) = operator.accepts order := by
  have hequal : (Json.num m).looselyEqual (.num n) = (order == .eq) := by
    rw [Json.looselyEqual, if_neg (by simp [Json.isNull]), if_pos (by simp [Json.isNumber]),
      Json.numericallyEqual]
    simp [Json.asNumber?, Double.same, h]
  have horder : (Json.num m).looseOrder? (.num n) = some order := by
    rw [Json.looseOrder?_of_numbers rfl rfl, h]
  cases operator with
  | contains => rfl
  | equal => exact hequal
  | notEqual => exact congrArg not hequal
  | greater | greaterOrEqual | less | lessOrEqual =>
      rw [holds, horder]
      cases order <;> rfl

end Operator

open Double (nearestInt nearestInt_of_le nearestInt_bounds nearestInt_mono nearestInt_nearest
  IsShort)

/-- The words that are told apart: one of the two is small, or they are far apart, or both have few
bits. -/
def ToldApart (a b : Int) : Prop :=
  a.natAbs < 2 ^ 53 ∨ b.natAbs < 2 ^ 53 ∨ 2 ^ 11 < (a - b).natAbs ∨ IsShort a ∧ IsShort b

theorem nearestInt_of_isShort {n : Int} (h : IsShort n) : nearestInt n = n := by
  have hnearest := nearestInt_nearest n h
  omega

/-- A word below `2 ^ 53` stands to the nearest short integer of a word as to the word. -/
theorem compare_nearestInt_of_small {a b : Int} (ha : a.natAbs < 2 ^ 53) (hb : IsWord b) :
    compare (nearestInt a) (nearestInt b) = compare a b := by
  rw [nearestInt_of_le (Nat.le_of_lt ha)]
  by_cases hsmall : b.natAbs ≤ 2 ^ 53
  · rw [nearestInt_of_le hsmall]
  · rcases Int.lt_or_le b 0 with hneg | hpos
    · have hle := nearestInt_mono (b := -(2 ^ 53)) hb.natAbs_le (by decide) (by omega)
      rw [nearestInt_of_le (n := -(2 ^ 53)) (by decide)] at hle
      rw [compare_gt_iff_gt.mpr (by omega), compare_gt_iff_gt.mpr (by omega)]
    · have hle := nearestInt_mono (a := 2 ^ 53) (by decide) hb.natAbs_le (by omega)
      rw [nearestInt_of_le (n := 2 ^ 53) (by decide)] at hle
      rw [compare_lt_iff_lt.mpr (by omega), compare_lt_iff_lt.mpr (by omega)]

/-- Words that are told apart stand in the order of their nearest short integers. -/
theorem compare_nearestInt {a b : Int} (ha : IsWord a) (hb : IsWord b) (h : ToldApart a b) :
    compare (nearestInt a) (nearestInt b) = compare a b := by
  rcases h with hsmall | hsmall | hfar | ⟨hshort, hshort'⟩
  · exact compare_nearestInt_of_small hsmall hb
  · calc
      compare (nearestInt a) (nearestInt b)
        = (compare (nearestInt b) (nearestInt a)).swap := Std.OrientedCmp.eq_swap
      _ = (compare b a).swap := by rw [compare_nearestInt_of_small hsmall ha]
      _ = compare a b := Std.OrientedCmp.eq_swap.symm
  · have hbounds := nearestInt_bounds ha.natAbs_le
    have hbounds' := nearestInt_bounds hb.natAbs_le
    rcases Int.lt_or_le a b with hlt | hge
    · rw [compare_lt_iff_lt.mpr (by omega), compare_lt_iff_lt.mpr hlt]
    · rw [compare_gt_iff_gt.mpr (by omega), compare_gt_iff_gt.mpr (by omega)]
  · rw [nearestInt_of_isShort hshort, nearestInt_of_isShort hshort']

/-- An operator says of two words what it says of their nearest short integers. -/
theorem Operator.holds_words {a b : Int} (ha : IsWord a) (hb : IsWord b) (operator : Operator) :
    operator.holds (.num (.int a)) (.num (.int b)) =
      operator.accepts (compare (nearestInt a) (nearestInt b)) :=
  holds_of_compare? (m := .int a) (n := .int b)
    (Double.compare?_ofInt ha.natAbs_le hb.natAbs_le) operator

/-! ## Looking for an integer -/

/-- Whether an operand is this integer. -/
def Operand.IsInteger (o : Operand) (n : Int) : Prop :=
  o = .bare (.num (.int n)) ∨ o = .literal (.num (.int n))

/-- Whether a statement says that a field of the matched record equals an integer. -/
def Statement.AsksFor (s : Statement) (field : String) (n : Int) : Prop :=
  Operator.ofText? s.operator = some .equal ∧
    (s.lhs = .recordField field ∧ s.rhs.IsInteger n ∨
      s.lhs.IsInteger n ∧ s.rhs = .recordField field)

theorem Operand.IsInteger.resolve {o : Operand} {n : Int} (h : o.IsInteger n) (pool : Pool)
    (record : Option Variable) : o.resolve pool record = .num (.int n) := by
  rcases h with rfl | rfl <;> rfl

/-- The integer in a record that fits the statement has the nearest short integer asked for. -/
theorem Statement.AsksFor.nearestInt_eq {s : Statement} {field : String} {a b : Int}
    (ha : IsWord a) (hb : IsWord b) (hasks : s.AsksFor field b) {pool : Pool} {r : Variable}
    (hholds : s.Holds pool (some r)) (hfield : r.field? field = some (.num (.int a))) :
    nearestInt a = nearestInt b := by
  obtain ⟨hequal, hsides⟩ := hasks
  have hresolve : (Operand.recordField field).resolve pool (some r) = .num (.int a) := by
    simp [Operand.resolve, hfield]
  rw [Statement.holds_iff hequal] at hholds
  rcases hsides with ⟨hl, hr⟩ | ⟨hl, hr⟩
  · rw [hl, hresolve, hr.resolve, Operator.holds_words ha hb] at hholds
    exact compare_eq_iff_eq.mp (eq_of_beq hholds)
  · rw [hr, hresolve, hl.resolve, Operator.holds_words hb ha] at hholds
    exact (compare_eq_iff_eq.mp (eq_of_beq hholds)).symm

/-- An operator says of two words what it says of the nearest integers with at most 53 significant
bits; the nearest one is off by at most `2 ^ 10`, and small words are their own. So no order is
turned round, and words that are told apart compare exactly. A lookup that asks for an integer in a
field finds an integer there that has the same nearest one, whatever the store: the integer itself,
if the two are told apart. -/
theorem words_compare_by_nearest {a b : Int} (ha : IsWord a) (hb : IsWord b) :
    (∀ operator : Operator, operator.holds (.num (.int a)) (.num (.int b)) =
      operator.accepts (compare (nearestInt a) (nearestInt b))) ∧
    ((∀ m, IsShort m → (a - nearestInt a).natAbs ≤ (a - m).natAbs) ∧
      (a - nearestInt a).natAbs ≤ 2 ^ 10 ∧ (a.natAbs ≤ 2 ^ 53 → nearestInt a = a)) ∧
    ((Operator.less.holds (.num (.int a)) (.num (.int b)) = true → a < b) ∧
      (a ≤ b → Operator.lessOrEqual.holds (.num (.int a)) (.num (.int b)) = true)) ∧
    (ToldApart a b → ∀ operator : Operator,
      operator.holds (.num (.int a)) (.num (.int b)) = operator.accepts (compare a b)) ∧
    ∀ {ρ ε β : Type} (store : RecordStore ρ) (outside : Outside ε β) (h : Heading)
      (condition : Condition) (m : Moment (ρ × ε)) (s : Statement) (field : String) (r : Variable),
      s ∈ condition.statements → s.AsksFor field b →
      ((Collaborators.searching store outside).after [.task h (.findRecord condition)] m).pool.find?
        h.name = some (.var r) →
      r.field? field = some (.num (.int a)) →
      nearestInt a = nearestInt b ∧ (ToldApart a b → a = b) := by
  have hholds := Operator.holds_words ha hb
  refine ⟨hholds, ⟨fun m => nearestInt_nearest a, ?_, nearestInt_of_le⟩, ⟨?_, ?_⟩, ?_, ?_⟩
  · have hbounds := nearestInt_bounds ha.natAbs_le
    omega
  · intro hless
    rw [hholds] at hless
    have hnearest := compare_lt_iff_lt.mp (eq_of_beq hless)
    by_contra hge
    have hmono := nearestInt_mono hb.natAbs_le ha.natAbs_le (Int.not_lt.mp hge)
    omega
  · intro hle
    have hmono := nearestInt_mono ha.natAbs_le hb.natAbs_le hle
    rw [hholds]
    exact bne_iff_ne.mpr (compare_le_iff_le.mpr hmono)
  · intro hapart operator
    rw [hholds, compare_nearestInt ha hb hapart]
  · intro ρ ε β store outside h condition m s field r hs hasks hfound hfield
    rw [Collaborators.after_findRecord, Ordered.find?_set_self, Option.some.injEq,
      PoolEntry.ofAnswer_eq_var_iff] at hfound
    have hsatisfied := RecordStore.satisfied_of_answer hfound
    rw [Condition.Satisfied, condition.statements_within] at hsatisfied
    have hnearest := hasks.nearestInt_eq ha hb (hsatisfied s hs) hfield
    refine ⟨hnearest, fun hapart => ?_⟩
    have hcompare := compare_nearestInt ha hb hapart
    rw [compare_eq_iff_eq.mpr hnearest] at hcompare
    exact compare_eq_iff_eq.mp hcompare.symm

/-- The least and the greatest word are told apart. Two neighbours beyond `2 ^ 60` have one nearest
short integer; the lookup that asks for the one finds the record that holds the other. -/
theorem lookup_of_neighbour :
    let outside : Outside Unit Unit :=
      { send := fun _ => pure (.ok ()), request := fun _ => pure (.error (.timeout ""))
        openForm := fun _ => pure (.ok ()), setTextField := fun _ _ => pure (.ok ())
        flatten := pure (.ok ()), save := pure (.ok ()), store := fun _ _ => pure (.ok ())
        stamp := pure "0" }
    let record : Variable := ⟨"1", "r", "o", [("x", .num (.int 1152921504606846977))]⟩
    let condition : Condition :=
      ⟨none, [⟨.bare (.num (.int 1152921504606846976)), "eq", .recordField "x"⟩]⟩
    Operator.less.holds (.num (.int (-9223372036854775808)))
      (.num (.int 18446744073709551615)) = true ∧
    ((Collaborators.searching .memory outside).after
      [.task ⟨"find", "found", ""⟩ (.findRecord condition)]
      ⟨[], ([("1", record)], ())⟩).pool.find? "found" = some (.var record) ∧
    nearestInt 1152921504606846977 = nearestInt 1152921504606846976 := by
  intro outside record condition
  have hlow : IsWord (-9223372036854775808) := by unfold IsWord; decide
  have hhigh : IsWord 18446744073709551615 := by unfold IsWord; decide
  have hone : IsWord 1152921504606846977 := by unfold IsWord; decide
  have hother : IsWord 1152921504606846976 := by unfold IsWord; decide
  obtain ⟨-, -, -, hexact, -⟩ := words_compare_by_nearest hlow hhigh
  obtain ⟨-, -, -, -, hlookup⟩ := words_compare_by_nearest hone hother
  have hfar : ToldApart (-9223372036854775808) 18446744073709551615 :=
    Or.inr (Or.inr (Or.inl (by decide)))
  have hasks : Statement.AsksFor
      ⟨.bare (.num (.int 1152921504606846976)), "eq", .recordField "x"⟩ "x"
      1152921504606846976 := ⟨by decide, Or.inr ⟨Or.inl rfl, rfl⟩⟩
  have hfound : ((Collaborators.searching .memory outside).after
      [.task ⟨"find", "found", ""⟩ (.findRecord condition)]
      ⟨[], ([("1", record)], ())⟩).pool.find? "found" = some (.var record) := rfl
  refine ⟨(hexact hfar .less).trans (by decide), hfound, ?_⟩
  exact (hlookup .memory outside _ condition _ _ "x" record (List.mem_singleton_self _) hasks hfound
    rfl).1

/-- Of two words that differ by one the operators say that they are equal, though one is less. -/
theorem neighbours_equal :
    IsWord 9007199254740992 ∧ IsWord 9007199254740993 ∧
    Operator.equal.holds (.num (.int 9007199254740993)) (.num (.int 9007199254740992)) = true ∧
    Operator.less.holds (.num (.int 9007199254740992)) (.num (.int 9007199254740993)) = false ∧
    ¬∀ a b : Int, IsWord a → IsWord b →
      (Operator.equal.holds (.num (.int a)) (.num (.int b)) = true ↔ a = b) := by
  have hone : IsWord 9007199254740993 := by unfold IsWord; decide
  have hother : IsWord 9007199254740992 := by unfold IsWord; decide
  have hequal : Operator.equal.holds (.num (.int 9007199254740993))
      (.num (.int 9007199254740992)) = true := by decide +kernel
  refine ⟨hother, hone, hequal, by decide +kernel, fun hexact => ?_⟩
  exact absurd ((hexact _ _ hone hother).mp hequal) (by decide)

end Stepwise
