import Stepwise.Proofs.Condition.Order
import Stepwise.Proofs.Json.Same

/-!
# Equality and the order of values

Two values are tied when each is at most the other one. A value reads as a number just when its text
does, and a finite number as itself, so a number is never tied with anything that is none, and for
most values to be equal is to be tied. The two part where equality looks at something else than the
order does: it compares two texts as they are, though both may read as numbers, and containers by
their content and not by their text. As the text of a value tells which value it is, two containers
that are tied are equal nevertheless.
-/

namespace Stepwise

/-- Only white space at the ends of a text is dropped. -/
theorem Text.trim_of_ends {c d : Char} {cs : List Char} (hc : isBlank c = false)
    (hd : isBlank d = false) :
    trim (String.ofList (c :: (cs ++ [d]))) = String.ofList (c :: (cs ++ [d])) := by
  simp [trim, trimChars, hc, hd]

namespace Double

/-- A text that starts with a bracket is no number. -/
theorem ofText?_of_bracket {c : Char} (h : c = '[' ∨ c = '\x7b') (cs : List Char) :
    ofText? (String.ofList (c :: cs)) = none := by
  have hsplit : splitSign (c :: cs) = (false, c :: cs) := by rcases h with rfl | rfl <;> rfl
  have hnone : readUnsigned false (c :: cs) = none := by rcases h with rfl | rfl <;> rfl
  rw [ofText?_eq_readUnsigned hsplit (by rcases h with rfl | rfl <;> decide)
    (by rcases h with rfl | rfl <;> decide), hnone]

end Double

namespace Json

/-! ## Numbers and their texts -/

/-- The text of a container stands between brackets. -/
theorem exists_compact_of_isContainer {v : Json} (h : v.isContainer = true) :
    ∃ c cs d, (c = '[' ∨ c = '\x7b') ∧ Text.isBlank d = false ∧
      v.compact = String.ofList (c :: (cs ++ [d])) := by
  cases v with
  | arr items =>
      refine ⟨'[', (compactItems items).toList, ']', Or.inl rfl, by decide,
        String.toList_inj.mp ?_⟩
      rw [toList_compact_arr, toList_compactItems, String.toList_ofList]
  | obj members =>
      refine ⟨'\x7b', (compactMembers members).toList, '\x7d', Or.inr rfl, by decide,
        String.toList_inj.mp ?_⟩
      rw [toList_compact_obj, toList_compactMembers, String.toList_ofList]
  | _ => cases h

/-- What a container is not, and its text. -/
theorem of_isContainer {v : Json} (h : v.isContainer = true) :
    v ≠ null ∧ v.isNumber = false ∧ v.asNumber? = none ∧ v.plainText = v.compact := by
  cases v with
  | arr items => exact ⟨nofun, rfl, rfl, rfl⟩
  | obj members => exact ⟨nofun, rfl, rfl, rfl⟩
  | _ => cases h

/-- A value reads as a number just when its text does. -/
theorem isSome_asNumber? {v : Json} (h : v ≠ null) :
    v.asNumber?.isSome = (Double.ofText? (Text.trim v.plainText)).isSome := by
  have hcontainer : v.isContainer = true → Double.ofText? (Text.trim v.plainText) = none := by
    intro hv
    obtain ⟨c, cs, d, hc, hd, htext⟩ := exists_compact_of_isContainer hv
    have hcBlank : Text.isBlank c = false := by rcases hc with rfl | rfl <;> decide
    rw [(of_isContainer hv).2.2.2, htext, Text.trim_of_ends hcBlank hd,
      Double.ofText?_of_bracket hc]
  cases v with
  | null => exact absurd rfl h
  | bool b => cases b <;> decide
  | num n =>
      rw [show (num n).plainText = n.text from rfl, n.trim_text, n.ofText?_text]
      rfl
  | str s => rfl
  | arr items => rw [hcontainer rfl]; rfl
  | obj members => rw [hcontainer rfl]; rfl

/-! ## Tied values -/

/-- Each of the two values is at most the other one. -/
def Ties (a b : Json) : Prop :=
  Operator.lessOrEqual.holds a b = true ∧ Operator.greaterOrEqual.holds a b = true

/-- The two values are numeric texts, or a container stands beside a container or a text. -/
def ComparedTwice (a b : Json) : Prop :=
  (∃ s t, a = str s ∧ b = str t ∧ a.asNumber?.isSome ∧ b.asNumber?.isSome) ∨
  (a.isContainer ∧ (b.isContainer ∨ ∃ t, b = str t)) ∨ (b.isContainer ∧ ∃ s, a = str s)

section Pairs

variable {a b : Json}

theorem ties_iff (a b : Json) : a.Ties b ↔ a.looseOrder? b = some .eq := by
  simp only [Ties, Operator.holds]
  rcases a.looseOrder? b with _ | _ | _ | _ <;> decide

theorem ties_of_numbers {x y : Double} (ha : a.asNumber? = some x) (hb : b.asNumber? = some y) :
    a.Ties b ↔ x.same y = true := by
  rw [ties_iff, looseOrder?_of_numbers ha hb, Double.same, beq_iff_eq]

theorem ties_of_texts (ha : a ≠ null) (hb : b ≠ null)
    (h : a.asNumber? = none ∨ b.asNumber? = none) : a.Ties b ↔ a.plainText = b.plainText := by
  rw [ties_iff, looseOrder?_of_texts ha hb h, Option.some.injEq, Std.LawfulEqOrd.compare_eq_iff_eq]

/-- What reads as a number is not tied with what does not. -/
theorem not_ties_of_number (ha : a ≠ null) (hb : b ≠ null)
    (h : a.asNumber?.isSome ≠ b.asNumber?.isSome) : ¬a.Ties b := by
  have hnone : a.asNumber? = none ∨ b.asNumber? = none := by
    cases hx : a.asNumber? with
    | none => exact Or.inl rfl
    | some x =>
        cases hy : b.asNumber? with
        | none => exact Or.inr rfl
        | some y =>
            rw [hx, hy] at h
            exact absurd rfl h
  rw [ties_of_texts ha hb hnone]
  intro htext
  rw [isSome_asNumber? ha, isSome_asNumber? hb, htext] at h
  exact h rfl

/-! ## Equal values -/

theorem equal_of_numbers (ha : a ≠ null) (hb : b ≠ null)
    (h : a.isNumber = true ∨ b.isNumber = true) :
    Operator.equal.holds a b = a.numericallyEqual b := by
  rw [Operator.holds, looselyEqual, if_neg (by simp [isNull_iff, ha, hb]),
    if_pos (by simpa using h)]

theorem equal_of_containers (ha : a ≠ null) (hb : b ≠ null) (hnumber : a.isNumber = false)
    (hnumber' : b.isNumber = false) (h : a.isContainer = true ∨ b.isContainer = true) :
    Operator.equal.holds a b = a.same b := by
  rw [Operator.holds, looselyEqual, if_neg (by simp [isNull_iff, ha, hb]),
    if_neg (by simp [hnumber, hnumber']), if_pos (by simpa using h)]

theorem equal_of_texts (ha : a ≠ null) (hb : b ≠ null) (hnumber : a.isNumber = false)
    (hnumber' : b.isNumber = false) (h : a.isContainer = false) (h' : b.isContainer = false) :
    Operator.equal.holds a b = true ↔ a.plainText = b.plainText := by
  rw [Operator.holds, looselyEqual, if_neg (by simp [isNull_iff, ha, hb]),
    if_neg (by simp [hnumber, hnumber']), if_neg (by simp [h, h']), beq_iff_eq]

theorem exists_asNumber? (h : a.isNumber = true) : ∃ x, a.asNumber? = some x := by
  cases a with
  | num n => exact ⟨n.toDouble, rfl⟩
  | _ => cases h

/-- A number equals what it is tied with. -/
theorem equal_iff_ties_of_isNumber (ha : a ≠ null) (hb : b ≠ null)
    (h : a.isNumber = true ∨ b.isNumber = true) :
    Operator.equal.holds a b = true ↔ a.Ties b := by
  rw [equal_of_numbers ha hb h, numericallyEqual]
  cases hx : a.asNumber? with
  | none =>
      obtain ⟨y, hy⟩ : ∃ y, b.asNumber? = some y := by
        refine exists_asNumber? (h.resolve_left fun hnumber => ?_)
        obtain ⟨x, hx'⟩ := exists_asNumber? hnumber
        rw [hx] at hx'
        cases hx'
      have hnot := not_ties_of_number ha hb (by simp [hx, hy])
      simp [hnot]
  | some x =>
      cases hy : b.asNumber? with
      | none =>
          have hnot := not_ties_of_number ha hb (by simp [hx, hy])
          simp [hnot]
      | some y => exact (ties_of_numbers hx hy).symm

/-- A container is the same as none but a container. -/
theorem same_eq_false (h : a.isContainer = true) (h' : b.isContainer = false) :
    a.same b = false ∧ b.same a = false := by
  cases a with
  | arr items =>
      cases b with
      | arr _ | obj _ => cases h'
      | _ => exact ⟨rfl, rfl⟩
  | obj members =>
      cases b with
      | arr _ | obj _ => cases h'
      | _ => exact ⟨rfl, rfl⟩
  | _ => cases h

theorem not_equal_of_container (h : a.isContainer = true) (hb : b ≠ null)
    (hnumber : b.isNumber = false) (h' : b.isContainer = false) :
    Operator.equal.holds a b = false ∧ Operator.equal.holds b a = false := by
  obtain ⟨ha, hnumber', -, -⟩ := of_isContainer h
  rw [equal_of_containers ha hb hnumber' hnumber (Or.inl h),
    equal_of_containers hb ha hnumber hnumber' (Or.inr h)]
  exact same_eq_false h h'

theorem ties_of_container (h : a.isContainer = true) (hb : b ≠ null) :
    (a.Ties b ↔ b.plainText = a.compact) ∧ (b.Ties a ↔ b.plainText = a.compact) := by
  obtain ⟨ha, -, hnone, htext⟩ := of_isContainer h
  rw [ties_of_texts ha hb (Or.inl hnone), ties_of_texts hb ha (Or.inr hnone), htext, eq_comm]
  exact ⟨Iff.rfl, Iff.rfl⟩

/-- Containers that are tied are one value, and so they are equal. -/
theorem ties_of_containers (h : a.isContainer = true) (h' : b.isContainer = true)
    (hfinite : a.HasFiniteNumbers) (hfinite' : b.HasFiniteNumbers) :
    (a.Ties b ↔ a = b) ∧ (a.IsNormal → a.Ties b → Operator.equal.holds a b = true) := by
  obtain ⟨ha, hnumber, -, -⟩ := of_isContainer h
  obtain ⟨hb, hnumber', -, htext⟩ := of_isContainer h'
  have hties : a.Ties b ↔ a = b := by
    rw [(ties_of_container h hb).1, htext]
    exact ⟨fun heq => compact_inj hfinite hfinite' heq.symm, fun heq => congrArg compact heq.symm⟩
  refine ⟨hties, fun hnormal htied => ?_⟩
  obtain rfl := hties.mp htied
  rw [equal_of_containers ha hb hnumber hnumber' (Or.inl h)]
  exact same_self a hnormal hfinite

theorem compact_ne_bool (h : a.isContainer = true) (v : Bool) : (bool v).plainText ≠ a.compact := by
  obtain ⟨c, cs, d, hc, -, htext⟩ := exists_compact_of_isContainer h
  rw [htext]
  intro heq
  have hhead := congrArg (fun s => s.toList.head?) heq
  rcases hc with rfl | rfl <;> cases v <;> simp [plainText, compact] at hhead

/-- Texts and truth values that do not both read as numbers are equal if they are tied. -/
theorem equal_iff_ties_of_texts (ha : a ≠ null) (hb : b ≠ null) (hnumber : a.isNumber = false)
    (hnumber' : b.isNumber = false) (h : a.isContainer = false) (h' : b.isContainer = false)
    (hnone : a.asNumber? = none ∨ b.asNumber? = none) :
    Operator.equal.holds a b = true ↔ a.Ties b := by
  rw [equal_of_texts ha hb hnumber hnumber' h h', ties_of_texts ha hb hnone]

theorem eq_bool_or_str (h : a ≠ null) (hnumber : a.isNumber = false) (h' : a.isContainer = false) :
    (∃ v, a = bool v) ∨ ∃ s, a = str s := by
  cases a with
  | null => exact absurd rfl h
  | bool v => exact Or.inl ⟨v, rfl⟩
  | str s => exact Or.inr ⟨s, rfl⟩
  | num n => cases hnumber
  | arr items => cases h'
  | obj members => cases h'

/-- A container neither equals a truth value nor is it tied with one. -/
theorem equal_iff_ties_bool (h : a.isContainer = true) (v : Bool) :
    (Operator.equal.holds a (bool v) = true ↔ a.Ties (bool v)) ∧
    (Operator.equal.holds (bool v) a = true ↔ (bool v).Ties a) := by
  obtain ⟨hequal, hequal'⟩ := not_equal_of_container h (b := bool v) nofun rfl rfl
  obtain ⟨hties, hties'⟩ := ties_of_container h (b := bool v) nofun
  simp [hequal, hequal', hties, hties', compact_ne_bool h v]

/-- Equality and the order agree on all values that are not compared in two ways. -/
theorem equal_iff_ties (ha : a ≠ null) (hb : b ≠ null) (h : ¬ComparedTwice a b) :
    Operator.equal.holds a b = true ↔ a.Ties b := by
  obtain ⟨hnumeric, hcontainers⟩ := not_or.mp h
  simp only [not_or, not_and] at hcontainers
  obtain ⟨hleft, hright⟩ := hcontainers
  by_cases hnumber : a.isNumber = true ∨ b.isNumber = true
  · exact equal_iff_ties_of_isNumber ha hb hnumber
  · simp only [not_or, Bool.not_eq_true] at hnumber
    obtain ⟨hnumber, hnumber'⟩ := hnumber
    cases hca : a.isContainer with
    | true =>
        obtain ⟨hcb, htext⟩ := hleft hca
        rcases eq_bool_or_str hb hnumber' (Bool.eq_false_iff.mpr hcb) with ⟨v, rfl⟩ | hstr
        · exact (equal_iff_ties_bool hca v).1
        · exact absurd hstr htext
    | false =>
        cases hcb : b.isContainer with
        | true =>
            rcases eq_bool_or_str ha hnumber hca with ⟨v, rfl⟩ | hstr
            · exact (equal_iff_ties_bool hcb v).2
            · exact absurd hstr (hright hcb)
        | false =>
            refine equal_iff_ties_of_texts ha hb hnumber hnumber' hca hcb ?_
            rcases eq_bool_or_str ha hnumber hca with ⟨v, rfl⟩ | ⟨s, rfl⟩
            · exact Or.inl rfl
            · rcases eq_bool_or_str hb hnumber' hcb with ⟨v, rfl⟩ | ⟨t, rfl⟩
              · exact Or.inr rfl
              · refine Classical.byContradiction fun hboth => hnumeric ⟨s, t, rfl, rfl, ?_⟩
                simpa only [not_or, ← Option.isSome_iff_ne_none] using hboth

end Pairs

/-- Two values but `null` are equal just when each is at most the other one, unless they are two
numeric texts, or a container beside a container or a text. Two numeric texts are equal as texts and
tied as numbers. A container never equals a text and is tied with the one that it is written as. Two
containers are equal when they have the same content, whatever the order of members, and tied when
they are written as one text; with finite numbers they are one value then, and equal. -/
theorem equality_against_order {a b : Json} (ha : a ≠ null) (hb : b ≠ null) :
    (¬ComparedTwice a b → (Operator.equal.holds a b = true ↔ a.Ties b)) ∧
    (∀ s t x y, a = str s → b = str t → a.asNumber? = some x → b.asNumber? = some y →
      (Operator.equal.holds a b = true ↔ s = t) ∧ (a.Ties b ↔ x.same y = true)) ∧
    (∀ t, a.isContainer = true → b = str t →
      Operator.equal.holds a b = false ∧ Operator.equal.holds b a = false ∧
      (a.Ties b ↔ t = a.compact) ∧ (b.Ties a ↔ t = a.compact)) ∧
    (a.isContainer = true → b.isContainer = true →
      (Operator.equal.holds a b = true ↔ a.same b = true) ∧ (a.Ties b ↔ a.compact = b.compact) ∧
      (a.HasFiniteNumbers → b.HasFiniteNumbers →
        (a.Ties b ↔ a = b) ∧ (a.IsNormal → a.Ties b → Operator.equal.holds a b = true))) := by
  refine ⟨equal_iff_ties ha hb, ?_, ?_, ?_⟩
  · rintro s t x y rfl rfl hx hy
    exact ⟨equal_of_texts ha hb rfl rfl rfl rfl, ties_of_numbers hx hy⟩
  · rintro t hca rfl
    obtain ⟨hequal, hequal'⟩ := not_equal_of_container hca hb rfl rfl
    obtain ⟨hties, hties'⟩ := ties_of_container hca hb
    exact ⟨hequal, hequal', hties, hties'⟩
  · intro hca hcb
    obtain ⟨-, hnumber, -, -⟩ := of_isContainer hca
    obtain ⟨-, hnumber', -, htext⟩ := of_isContainer hcb
    refine ⟨?_, ?_, ties_of_containers hca hcb⟩
    · rw [equal_of_containers ha hb hnumber hnumber' (Or.inl hca)]
    · rw [(ties_of_container hca hb).1, htext]
      exact eq_comm

/-- A number and the text of a number with a blank are equal and tied. A list and its text are tied
and not equal; two objects with their members in another order are equal and not tied. -/
theorem equality_of_spellings :
    (Operator.equal.holds (num (.int 5)) (str " 5.0") = true ∧
      (num (.int 5)).Ties (str " 5.0")) ∧
    (Operator.equal.holds (arr [num (.int 1)]) (str "[1]") = false ∧
      (arr [num (.int 1)]).Ties (str "[1]")) ∧
    (Operator.equal.holds (obj [("x", null), ("y", bool true)])
        (obj [("y", bool true), ("x", null)]) = true ∧
      ¬(obj [("x", null), ("y", bool true)]).Ties (obj [("y", bool true), ("x", null)])) := by
  have hnot : ¬ComparedTwice (num (.int 5)) (str " 5.0") := by
    simp [ComparedTwice, isContainer]
  have hequal : Operator.equal.holds (num (.int 5)) (str " 5.0") = true := by decide +kernel
  have hnumber := (equality_against_order (a := num (.int 5)) (b := str " 5.0")
    (by simp) (by simp)).1 hnot
  have hlist := (equality_against_order (a := arr [num (.int 1)]) (b := str "[1]")
    (by simp) (by simp)).2.2.1 "[1]" rfl rfl
  have hobjects := (equality_against_order (a := obj [("x", null), ("y", bool true)])
    (b := obj [("y", bool true), ("x", null)]) (by simp) (by simp)).2.2.2 rfl rfl
  exact ⟨⟨hequal, hnumber.mp hequal⟩, ⟨hlist.1, hlist.2.2.1.mpr (by decide)⟩,
    hobjects.1.mpr (by decide), mt hobjects.2.1.mp (by decide)⟩

/-- Two texts of one number are each at most the other one and not equal. -/
theorem tied_texts_not_equal :
    Operator.equal.holds (str "5") (str "5.0") = false ∧ (str "5").Ties (str "5.0") ∧
    ¬∀ a b : Json, a ≠ null → b ≠ null →
      (Operator.equal.holds a b = true ↔
        Operator.lessOrEqual.holds a b = true ∧ Operator.greaterOrEqual.holds a b = true) := by
  have hequal : Operator.equal.holds (str "5") (str "5.0") = false := by decide
  have hties : (str "5").Ties (str "5.0") := (ties_iff _ _).mpr (by decide +kernel)
  refine ⟨hequal, hties, fun hagree => ?_⟩
  have htrue := (hagree (str "5") (str "5.0") nofun nofun).mpr hties
  rw [hequal] at htrue
  cases htrue

end Json

end Stepwise
