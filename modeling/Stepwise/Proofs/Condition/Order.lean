import Mathlib.Order.Compare
import Stepwise.Condition.Compare
import Stepwise.Proofs.Json.Same

/-!
# The order of values

Two values stand in no order when one of them is `null`, or when both read as numbers and one of the
numbers is a NaN. Any other two are ordered as their numbers are, or else as their texts. The four
operators that ask for an order say nothing more than what this order is, so they mirror each other
and `<` and `<=` are transitive as long as only numbers or only texts are compared.
-/

namespace Stepwise

namespace Json

/-- One value is `null`, or both read as numbers and one of the numbers is a NaN. -/
def Unordered (a b : Json) : Prop :=
  a = null ∨ b = null ∨
    ∃ x y, a.asNumber? = some x ∧ b.asNumber? = some y ∧ (x.isNaN = true ∨ y.isNaN = true)

/-- A value reads as a number that is no NaN. -/
def ReadsAsNumber (v : Json) : Prop := ∃ x, v.asNumber? = some x ∧ x.isNaN = false

/-- A value is there and reads as no number. -/
def ReadsAsText (v : Json) : Prop := v ≠ null ∧ v.asNumber? = none

theorem isNull_iff {v : Json} : v.isNull = true ↔ v = null := by
  cases v <;> simp [isNull]

theorem ne_null_of_asNumber? {v : Json} {x : Double} (h : v.asNumber? = some x) : v ≠ null := by
  rintro rfl
  cases h

section Pairs

variable {a b : Json}

theorem looseOrder?_of_null (h : a = null ∨ b = null) : a.looseOrder? b = none := by
  have hnull : (a.isNull || b.isNull) = true := by simpa [isNull_iff] using h
  rw [looseOrder?, if_pos hnull]

theorem looseOrder?_of_numbers {x y : Double} (ha : a.asNumber? = some x)
    (hb : b.asNumber? = some y) : a.looseOrder? b = x.compare? y := by
  have hnull : ¬(a.isNull || b.isNull) = true := by
    simp [isNull_iff, ne_null_of_asNumber? ha, ne_null_of_asNumber? hb]
  rw [looseOrder?, if_neg hnull, ha, hb]

theorem looseOrder?_of_texts (ha : a ≠ null) (hb : b ≠ null)
    (h : a.asNumber? = none ∨ b.asNumber? = none) :
    a.looseOrder? b = some (compare a.plainText b.plainText) := by
  have hnull : ¬(a.isNull || b.isNull) = true := by simp [isNull_iff, ha, hb]
  rw [looseOrder?, if_neg hnull]
  rcases h with h | h
  · rw [h]
  · rw [h]
    cases a.asNumber? <;> rfl

/-- The three ways in which two values stand to each other. -/
theorem looseOrder?_cases (a b : Json) :
    (Unordered a b ∧ a.looseOrder? b = none) ∨
    (∃ x y, a.asNumber? = some x ∧ b.asNumber? = some y ∧ x.isNaN = false ∧ y.isNaN = false ∧
      a.looseOrder? b = some (compare x.key y.key)) ∨
    (a ≠ null ∧ b ≠ null ∧ (a.asNumber? = none ∨ b.asNumber? = none) ∧
      a.looseOrder? b = some (compare a.plainText b.plainText)) := by
  by_cases hnull : a = null ∨ b = null
  · exact Or.inl ⟨hnull.imp id Or.inl, looseOrder?_of_null hnull⟩
  · obtain ⟨ha, hb⟩ := not_or.mp hnull
    cases hx : a.asNumber? with
    | none => exact Or.inr (Or.inr ⟨ha, hb, Or.inl rfl, looseOrder?_of_texts ha hb (Or.inl hx)⟩)
    | some x =>
        cases hy : b.asNumber? with
        | none =>
            exact Or.inr (Or.inr ⟨ha, hb, Or.inr rfl, looseOrder?_of_texts ha hb (Or.inr hy)⟩)
        | some y =>
            have horder := looseOrder?_of_numbers hx hy
            by_cases hnan : x.isNaN = true ∨ y.isNaN = true
            · refine Or.inl ⟨Or.inr (Or.inr ⟨x, y, hx, hy, hnan⟩), ?_⟩
              rw [horder, Double.compare?, if_pos (by simpa using hnan)]
            · obtain ⟨hxNumber, hyNumber⟩ := not_or.mp hnan
              rw [Bool.not_eq_true] at hxNumber hyNumber
              refine Or.inr (Or.inl ⟨x, y, rfl, rfl, hxNumber, hyNumber, ?_⟩)
              simp [horder, Double.compare?, hxNumber, hyNumber]

theorem looseOrder?_eq_none_iff (a b : Json) : a.looseOrder? b = none ↔ Unordered a b := by
  rcases looseOrder?_cases a b with ⟨h, hnone⟩ | ⟨x, y, hx, hy, hxNumber, hyNumber, hsome⟩ |
      ⟨ha, hb, htext, hsome⟩
  · simp [h, hnone]
  · have ha := ne_null_of_asNumber? hx
    have hb := ne_null_of_asNumber? hy
    simp [hsome, Unordered, ha, hb, hx, hy, hxNumber, hyNumber]
  · rcases htext with hx | hy
    · simp [hsome, Unordered, ha, hb, hx]
    · simp [hsome, Unordered, ha, hb, hy]

/-- Two values the other way round stand in the mirrored order. -/
theorem looseOrder?_swap (a b : Json) :
    b.looseOrder? a = (a.looseOrder? b).map Ordering.swap := by
  rcases looseOrder?_cases a b with ⟨h, hnone⟩ | ⟨x, y, hx, hy, -, -, -⟩ | ⟨ha, hb, htext, hsome⟩
  · have hback : Unordered b a := by
      rcases h with ha | hb | ⟨x, y, hx, hy, hnan⟩
      · exact Or.inr (Or.inl ha)
      · exact Or.inl hb
      · exact Or.inr (Or.inr ⟨y, x, hy, hx, hnan.symm⟩)
    rw [hnone, (looseOrder?_eq_none_iff b a).mpr hback]
    rfl
  · rw [looseOrder?_of_numbers hx hy, looseOrder?_of_numbers hy hx, Double.compare?_swap]
  · have hswap : compare b.plainText a.plainText = (compare a.plainText b.plainText).swap :=
      Std.OrientedCmp.eq_swap
    rw [hsome, looseOrder?_of_texts hb ha htext.symm, hswap]
    rfl

end Pairs

theorem numericallyEqual_comm (a b : Json) : a.numericallyEqual b = b.numericallyEqual a := by
  rw [numericallyEqual, numericallyEqual]
  cases a.asNumber? with
  | none => cases b.asNumber? <;> rfl
  | some x =>
      cases b.asNumber? with
      | none => rfl
      | some y => exact Double.same_comm x y

/-- Loose equality does not depend on which value comes first. -/
theorem looselyEqual_comm {a b : Json} (ha : a.IsNormal) (hb : b.IsNormal) :
    a.looselyEqual b = b.looselyEqual a := by
  simp only [looselyEqual, Bool.or_comm b.isNull, Bool.and_comm b.isNull, Bool.or_comm b.isNumber,
    Bool.or_comm b.isContainer, numericallyEqual_comm b a, same_comm hb ha,
    BEq.comm (a := b.plainText)]

/-- What the four operators that ask for an order say of two values in this order. -/
def Ranks (a : Json) (order : Ordering) (b : Json) : Prop :=
  match order with
  | .lt => Operator.less.holds a b = true ∧ Operator.lessOrEqual.holds a b = true ∧
      Operator.greater.holds a b = false ∧ Operator.greaterOrEqual.holds a b = false
  | .eq => Operator.less.holds a b = false ∧ Operator.lessOrEqual.holds a b = true ∧
      Operator.greater.holds a b = false ∧ Operator.greaterOrEqual.holds a b = true
  | .gt => Operator.less.holds a b = false ∧ Operator.lessOrEqual.holds a b = false ∧
      Operator.greater.holds a b = true ∧ Operator.greaterOrEqual.holds a b = true

theorem ranks_iff (a b : Json) (order : Ordering) :
    a.Ranks order b ↔ a.looseOrder? b = some order := by
  simp only [Ranks, Operator.holds]
  cases order <;> rcases a.looseOrder? b with _ | _ | _ | _ <;> decide

end Json

namespace Operator

theorem holds_less_iff (a b : Json) : less.holds a b = true ↔ a.looseOrder? b = some .lt := by
  simp [holds]

theorem holds_lessOrEqual_iff (a b : Json) :
    lessOrEqual.holds a b = true ↔ ∃ order, a.looseOrder? b = some order ∧ order.isLE = true := by
  rw [holds]
  rcases a.looseOrder? b with _ | _ | _ | _ <;> simp

theorem holds_greater (a b : Json) : greater.holds a b = less.holds b a := by
  rw [holds, holds, Json.looseOrder?_swap a b]
  rcases a.looseOrder? b with _ | _ | _ | _ <;> rfl

theorem holds_greaterOrEqual (a b : Json) :
    greaterOrEqual.holds a b = lessOrEqual.holds b a := by
  rw [holds, holds, Json.looseOrder?_swap a b]
  rcases a.looseOrder? b with _ | _ | _ | _ <;> rfl

/-- `<` and `<=` carry over from one pair of values to the next as long as all are compared by one
transitive order. -/
theorem holds_trans {α : Type} [Ord α] [Std.TransOrd α] {a b c : Json} {i j k : α}
    (hab : a.looseOrder? b = some (compare i j)) (hbc : b.looseOrder? c = some (compare j k))
    (hac : a.looseOrder? c = some (compare i k)) :
    (less.holds a b = true → less.holds b c = true → less.holds a c = true) ∧
    (lessOrEqual.holds a b = true → lessOrEqual.holds b c = true →
      lessOrEqual.holds a c = true) := by
  simp only [holds_less_iff, holds_lessOrEqual_iff, hab, hbc, hac, Option.some.injEq,
    exists_eq_left']
  exact ⟨Std.TransCmp.lt_trans, Std.TransCmp.isLE_trans⟩

end Operator

namespace Json

theorem looseOrder?_of_readsAsNumber {a b : Json} (ha : a.ReadsAsNumber) (hb : b.ReadsAsNumber) :
    ∃ x y, a.asNumber? = some x ∧ b.asNumber? = some y ∧
      a.looseOrder? b = some (compare x.key y.key) := by
  obtain ⟨x, hx, hxNumber⟩ := ha
  obtain ⟨y, hy, hyNumber⟩ := hb
  refine ⟨x, y, hx, hy, ?_⟩
  rw [looseOrder?_of_numbers hx hy]
  simp [Double.compare?, hxNumber, hyNumber]

/-- The laws of the comparing operators. `==` and `!=` do not depend on which value comes first, and
`>` and `>=` are `<` and `<=` the other way round. Of two values that stand in no order none of the
four holds; any other two are in exactly one of the three orders, and the four operators say so.
`<` and `<=` are transitive on values that all read as numbers, and on values none of which does. -/
theorem comparison_laws {a b : Json} (ha : a.IsNormal) (hb : b.IsNormal) (c : Json) :
    (Operator.equal.holds a b = Operator.equal.holds b a ∧
      Operator.notEqual.holds a b = Operator.notEqual.holds b a) ∧
    (Operator.greater.holds a b = Operator.less.holds b a ∧
      Operator.greaterOrEqual.holds a b = Operator.lessOrEqual.holds b a) ∧
    (a.Unordered b →
      Operator.less.holds a b = false ∧ Operator.lessOrEqual.holds a b = false ∧
      Operator.greater.holds a b = false ∧ Operator.greaterOrEqual.holds a b = false) ∧
    (¬a.Unordered b → ∃! order, a.Ranks order b) ∧
    ((a.ReadsAsNumber ∧ b.ReadsAsNumber ∧ c.ReadsAsNumber) ∨
        (a.ReadsAsText ∧ b.ReadsAsText ∧ c.ReadsAsText) →
      (Operator.less.holds a b = true → Operator.less.holds b c = true →
        Operator.less.holds a c = true) ∧
      (Operator.lessOrEqual.holds a b = true → Operator.lessOrEqual.holds b c = true →
        Operator.lessOrEqual.holds a c = true)) := by
  refine ⟨⟨?_, ?_⟩, ⟨Operator.holds_greater a b, Operator.holds_greaterOrEqual a b⟩, ?_, ?_, ?_⟩
  · exact looselyEqual_comm ha hb
  · exact congrArg not (looselyEqual_comm ha hb)
  · intro hnone
    have horder := (looseOrder?_eq_none_iff a b).mpr hnone
    simp [Operator.holds, horder]
  · intro hsome
    obtain ⟨order, horder⟩ := Option.ne_none_iff_exists'.mp
      (mt (looseOrder?_eq_none_iff a b).mp hsome)
    refine ⟨order, (ranks_iff a b order).mpr horder, fun other hother => ?_⟩
    exact Option.some.inj (((ranks_iff a b other).mp hother).symm.trans horder)
  · rintro (⟨ha, hb, hc⟩ | ⟨⟨ha, hatext⟩, ⟨hb, hbtext⟩, ⟨hc, -⟩⟩)
    · obtain ⟨x, y, hx, hy, hab⟩ := looseOrder?_of_readsAsNumber ha hb
      obtain ⟨y', z, hy', hz, hbc⟩ := looseOrder?_of_readsAsNumber hb hc
      obtain ⟨x', z', hx', hz', hac⟩ := looseOrder?_of_readsAsNumber ha hc
      obtain rfl := Option.some.inj (hx.symm.trans hx')
      obtain rfl := Option.some.inj (hy.symm.trans hy')
      obtain rfl := Option.some.inj (hz.symm.trans hz')
      exact Operator.holds_trans hab hbc hac
    · exact Operator.holds_trans (looseOrder?_of_texts ha hb (Or.inl hatext))
        (looseOrder?_of_texts hb hc (Or.inl hbtext)) (looseOrder?_of_texts ha hc (Or.inl hatext))

/-- A text with a blank, a number and a text with an exponent are in the order of their numbers; a
NaN stands in no order; two objects are equal in whichever order they come. -/
theorem comparison_laws_of_spellings :
    (Operator.less.holds (str " 9") (num (.int 10)) = true ∧
      Operator.less.holds (num (.int 10)) (str "1e2") = true ∧
      Operator.less.holds (str " 9") (str "1e2") = true ∧
      ∃! order, (str " 9").Ranks order (num (.int 10))) ∧
    ((str "nan").Unordered (num (.int 1)) ∧
      Operator.lessOrEqual.holds (str "nan") (num (.int 1)) = false) ∧
    Operator.equal.holds (obj [("x", null), ("y", bool true)])
      (obj [("y", bool true), ("x", null)]) =
    Operator.equal.holds (obj [("y", bool true), ("x", null)])
      (obj [("x", null), ("y", bool true)]) := by
  have reads (v : Json) (h : (v.asNumber?.map Double.isNaN) = some false) : v.ReadsAsNumber := by
    obtain ⟨x, hx, hxNumber⟩ := Option.map_eq_some_iff.mp h
    exact ⟨x, hx, hxNumber⟩
  have hnine : (str " 9").ReadsAsNumber := reads _ (by decide +kernel)
  have hten : (num (.int 10)).ReadsAsNumber := reads _ (by decide +kernel)
  have hhundred : (str "1e2").ReadsAsNumber := reads _ (by decide +kernel)
  have hordered : ¬(str " 9").Unordered (num (.int 10)) :=
    mt (looseOrder?_eq_none_iff _ _).mpr (by decide +kernel)
  have hnan : (str "nan").Unordered (num (.int 1)) :=
    (looseOrder?_eq_none_iff _ _).mp (by decide +kernel)
  have hless : Operator.less.holds (str " 9") (num (.int 10)) = true := by decide +kernel
  have hless' : Operator.less.holds (num (.int 10)) (str "1e2") = true := by decide +kernel
  have hlaws := comparison_laws (isNormal_str " 9") (isNormal_num (.int 10)) (str "1e2")
  obtain ⟨-, -, -, hone, htrans⟩ := hlaws
  obtain ⟨-, -, hnone, -⟩ := comparison_laws (isNormal_str "nan") (isNormal_num (.int 1)) null
  have hobjects := comparison_laws (a := obj [("x", null), ("y", bool true)])
    (b := obj [("y", bool true), ("x", null)]) rfl rfl null
  exact ⟨⟨hless, hless', (htrans (Or.inl ⟨hnine, hten, hhundred⟩)).1 hless hless',
    hone hordered⟩, ⟨hnan, (hnone hnan).2.1⟩, hobjects.1.1⟩

end Json

end Stepwise
