import Mathlib.Data.List.Infix
import Mathlib.Data.List.TakeWhile
import Stepwise.Text.Blank
import Stepwise.Text.Caseless

/-!
# Laws of spelling without case

What it means that a spelling of a word is split off, that one stands somewhere, and that a run of a
class is split off, each as an equation between texts. Folding changes letters only, and on ASCII
letters it is the change to lower case.
-/

namespace Stepwise.Text

/-! ## Folding -/

/-- What is so for each of the ASCII characters is so for a character below 128. -/
theorem of_ascii {P : Char → Prop} (h : ∀ n : Fin 128, P (Char.ofNat n)) {c : Char}
    (hc : c.toNat < 128) : P c := by
  have hchar := h ⟨c.toNat, hc⟩
  rwa [Char.ofNat_toNat] at hchar

theorem isAlphanum_of_isAlpha {c : Char} (h : c.isAlpha = true) : c.isAlphanum = true :=
  (Bool.or_eq_true _ _).mpr (Or.inl h)

theorem isAlpha_of_isUpper {c : Char} (h : c.isUpper = true) : c.isAlpha = true :=
  (Bool.or_eq_true _ _).mpr (Or.inl h)

/-- The ASCII digits and letters are ranges that end below 128. -/
theorem toNat_lt_of_isAlphanum {c : Char} (h : c.isAlphanum = true) : c.toNat < 128 := by
  have hrange {last : UInt32} (hlast : last.toNat < 128) (hc : c.val ≤ last) : c.toNat < 128 :=
    Nat.lt_of_le_of_lt (UInt32.le_iff_toNat_le.mp hc) hlast
  rcases (Bool.or_eq_true _ _).mp h with hletter | hdigit
  · rcases (Bool.or_eq_true _ _).mp hletter with hupper | hlower
    · exact hrange (by decide) (of_decide_eq_true hupper).2
    · exact hrange (by decide) (of_decide_eq_true ((Bool.and_eq_true _ _).mp hlower).2)
  · exact hrange (by decide) (of_decide_eq_true ((Bool.and_eq_true _ _).mp hdigit).2)

theorem fold_of_isAlphanum {c : Char} (h : c.isAlphanum = true) : fold c = c.toLower :=
  of_ascii (P := fun c => fold c = c.toLower) (by decide +kernel) (toNat_lt_of_isAlphanum h)

theorem isLetterOrDigit_of_isAlphanum {c : Char} (h : c.isAlphanum = true) :
    isLetterOrDigit c = true :=
  of_ascii (P := fun c => c.isAlphanum = true → isLetterOrDigit c = true) (by decide +kernel)
    (toNat_lt_of_isAlphanum h) h

theorem isLetter_of_isAlpha {c : Char} (h : c.isAlpha = true) : isLetter c = true :=
  of_ascii (P := fun c => c.isAlpha = true → isLetter c = true) (by decide +kernel)
    (toNat_lt_of_isAlphanum (isAlphanum_of_isAlpha h)) h

theorem isBlank_of_isAlphanum {c : Char} (h : c.isAlphanum = true) : isBlank c = false :=
  of_ascii (P := fun c => c.isAlphanum = true → isBlank c = false) (by decide +kernel)
    (toNat_lt_of_isAlphanum h) h

/-- Folding changes the Kelvin sign, the long s and the upper case letters. -/
theorem fold_eq_self_or (c : Char) : fold c = c ∨ c = '\u212a' ∨ c = '\u017f' ∨ c.isUpper = true := by
  by_cases hkelvin : c = '\u212a'
  · exact Or.inr (Or.inl hkelvin)
  by_cases hlong : c = '\u017f'
  · exact Or.inr (Or.inr (Or.inl hlong))
  by_cases hupper : c.isUpper = true
  · exact Or.inr (Or.inr (Or.inr hupper))
  · left
    rw [fold, if_neg hkelvin, if_neg hlong]
    exact dif_neg fun hrange => hupper (decide_eq_true hrange)

theorem isLetter_of_isUpper {c : Char} (h : c.isUpper = true) :
    isLetter c = true ∧ isLetter (fold c) = true :=
  of_ascii (P := fun c => c.isUpper = true → isLetter c = true ∧ isLetter (fold c) = true)
    (by decide +kernel) (toNat_lt_of_isAlphanum (isAlphanum_of_isAlpha (isAlpha_of_isUpper h))) h

/-- What folding changes is a letter before and after. -/
theorem fold_eq_self_or_isLetter (c : Char) :
    fold c = c ∨ (isLetter c = true ∧ isLetter (fold c) = true) := by
  rcases fold_eq_self_or c with hself | rfl | rfl | hupper
  · exact Or.inl hself
  · exact Or.inr (by decide)
  · exact Or.inr (by decide)
  · exact Or.inr (isLetter_of_isUpper hupper)

theorem fold_of_not_isLetter {c : Char} (h : isLetter c = false) : fold c = c := by
  rcases fold_eq_self_or_isLetter c with hself | ⟨hletter, -⟩
  · exact hself
  · rw [h] at hletter
    cases hletter

/-- A character that is no letter is spelled by itself alone. -/
theorem eq_of_fold_eq {c d : Char} (h : fold c = d) (hd : isLetter d = false) : c = d := by
  rcases fold_eq_self_or_isLetter c with hself | ⟨-, hletter⟩
  · rw [← hself, h]
  · rw [h, hd] at hletter
    cases hletter

/-- A word without letters. -/
def IsSymbols (word : List Char) : Prop := ∀ d ∈ word, isLetter d = false

instance (word : List Char) : Decidable (IsSymbols word) := List.decidableBAll _ word

/-- Without letters a word is spelled by itself alone. -/
theorem map_fold_eq_iff {word cs : List Char} (hword : IsSymbols word) :
    cs.map fold = word ↔ cs = word := by
  constructor
  · rintro rfl
    have hself : ∀ c ∈ cs, fold c = c := fun c hc =>
      (eq_of_fold_eq rfl (hword _ (List.mem_map_of_mem hc))).symm
    exact ((List.map_congr_left hself).trans (List.map_id cs)).symm
  · rintro rfl
    exact (List.map_congr_left fun c hc => fold_of_not_isLetter (hword c hc)).trans (List.map_id cs)

/-! ## Spellings -/

theorem spelled?_append (taken rest : List Char) :
    spelled? (taken.map fold) (taken ++ rest) = some (taken, rest) := by
  induction taken with
  | nil => simp [spelled?]
  | cons c taken ih => simp [spelled?, ih]

theorem split_of_spelled? {word cs taken rest : List Char}
    (h : spelled? word cs = some (taken, rest)) : cs = taken ++ rest ∧ taken.map fold = word := by
  induction word generalizing cs taken with
  | nil =>
      obtain ⟨rfl, rfl⟩ := Prod.mk.inj (Option.some.inj h)
      exact ⟨rfl, rfl⟩
  | cons w ws ih =>
      cases cs with
      | nil => cases h
      | cons c cs =>
          rw [spelled?] at h
          split at h
          case isFalse => cases h
          case isTrue hc =>
            obtain ⟨⟨front, back⟩, hfound, heq⟩ := Option.map_eq_some_iff.mp h
            obtain ⟨rfl, rfl⟩ := Prod.mk.inj heq
            obtain ⟨rfl, hfold⟩ := ih hfound
            exact ⟨rfl, by rw [List.map_cons, hc, hfold]⟩

/-- A spelling of a word is split off exactly when it stands in front. -/
theorem spelled?_eq_some_iff {word cs taken rest : List Char} :
    spelled? word cs = some (taken, rest) ↔ cs = taken ++ rest ∧ taken.map fold = word := by
  refine ⟨split_of_spelled?, ?_⟩
  rintro ⟨rfl, rfl⟩
  exact spelled?_append taken rest

/-- A word without letters is split off exactly when it stands in front itself. -/
theorem spelled?_symbols_iff {word cs taken rest : List Char} (hword : IsSymbols word) :
    spelled? word cs = some (taken, rest) ↔ cs = word ++ rest ∧ taken = word := by
  rw [spelled?_eq_some_iff, map_fold_eq_iff hword]
  constructor
  · rintro ⟨rfl, rfl⟩
    exact ⟨rfl, rfl⟩
  · rintro ⟨rfl, rfl⟩
    exact ⟨rfl, rfl⟩

theorem spelled?_symbols {word : List Char} (hword : IsSymbols word) (rest : List Char) :
    spelled? word (word ++ rest) = some (word, rest) :=
  (spelled?_symbols_iff hword).mpr ⟨rfl, rfl⟩

/-- A word is spelled in a text exactly when it stands in the folded text. -/
theorem spells_iff {word cs : List Char} : spells word cs = true ↔ word <:+: cs.map fold := by
  induction cs with
  | nil => simp [spells]
  | cons c cs ih =>
      rw [spells, Bool.or_eq_true, ih, List.map_cons, List.infix_cons_iff, ← List.map_cons]
      refine or_congr_left ?_
      rw [Option.isSome_iff_exists]
      constructor
      · rintro ⟨⟨taken, rest⟩, h⟩
        obtain ⟨hsplit, rfl⟩ := spelled?_eq_some_iff.mp h
        rw [hsplit, List.map_append]
        exact List.prefix_append _ _
      · rintro ⟨rest, hrest⟩
        obtain ⟨taken, left, hsplit, hfold, -⟩ := List.map_eq_append_iff.mp hrest.symm
        exact ⟨(taken, left), spelled?_eq_some_iff.mpr ⟨hsplit, hfold⟩⟩

/-! ## Runs -/

/-- A character that is not in a class is not in a text of the class. -/
theorem not_mem_of_class {p : Char → Bool} {cs : List Char} (hcs : ∀ c ∈ cs, p c = true) {c : Char}
    (hc : p c = false) : c ∉ cs := by
  intro hmem
  rw [hcs c hmem] at hc
  cases hc

/-- A run ends in front of the first character that is not in the class. -/
theorem run_append {p : Char → Bool} {xs ys : List Char} (hxs : ∀ c ∈ xs, p c = true)
    (hys : ∀ c ∈ ys.head?, p c = false) : run p (xs ++ ys) = (xs, ys) := by
  rw [run, List.takeWhile_append_of_pos hxs, List.dropWhile_append_of_pos hxs]
  cases ys with
  | nil => simp
  | cons y ys => simp [hys y rfl]

/-- A run is what is in the class up to the first character that is not. -/
theorem run_eq_iff {p : Char → Bool} {cs xs ys : List Char} :
    run p cs = (xs, ys) ↔
      cs = xs ++ ys ∧ (∀ c ∈ xs, p c = true) ∧ ∀ c ∈ ys.head?, p c = false := by
  constructor
  · intro h
    obtain ⟨rfl, rfl⟩ := Prod.mk.inj h
    refine ⟨List.takeWhile_append_dropWhile.symm, fun c hc => List.mem_takeWhile_imp hc, ?_⟩
    intro c hc
    have hhead := List.head?_dropWhile_not p cs
    rw [Option.mem_def.mp hc] at hhead
    simpa using hhead
  · rintro ⟨rfl, hxs, hys⟩
    exact run_append hxs hys

/-- The same for a run that is not empty. -/
theorem run?_eq_some_iff {p : Char → Bool} {cs xs ys : List Char} :
    run? p cs = some (xs, ys) ↔
      cs = xs ++ ys ∧ xs ≠ [] ∧ (∀ c ∈ xs, p c = true) ∧ ∀ c ∈ ys.head?, p c = false := by
  have hrun : run? p cs = some (xs, ys) ↔ xs ≠ [] ∧ run p cs = (xs, ys) := by
    rw [run?]
    split
    next heq =>
      simp only [heq, reduceCtorEq, false_iff, not_and]
      intro hne h
      exact hne (Prod.mk.inj h).1.symm
    next heq =>
      rw [heq, Option.some_inj]
      refine ⟨fun h => ⟨?_, h⟩, fun h => h.2⟩
      rintro rfl
      cases h
  rw [hrun, run_eq_iff, and_left_comm]

/-- A run in front of a character that is not in the class. -/
theorem run_append_cons {p : Char → Bool} {xs : List Char} (hxs : ∀ c ∈ xs, p c = true) {d : Char}
    (hd : p d = false) (ys : List Char) : run p (xs ++ d :: ys) = (xs, d :: ys) := by
  refine run_append hxs ?_
  rintro c ⟨⟩
  exact hd

theorem run?_append_cons {p : Char → Bool} {xs : List Char} (hne : xs ≠ [])
    (hxs : ∀ c ∈ xs, p c = true) {d : Char} (hd : p d = false) (ys : List Char) :
    run? p (xs ++ d :: ys) = some (xs, d :: ys) := by
  refine run?_eq_some_iff.mpr ⟨rfl, hne, hxs, ?_⟩
  rintro c ⟨⟩
  exact hd

/-- There is a run exactly when the first character is in the class. -/
theorem exists_run?_iff {p : Char → Bool} {cs : List Char} :
    (∃ split, run? p cs = some split) ↔ ∃ c ∈ cs.head?, p c = true := by
  cases cs with
  | nil => simp [run?, run]
  | cons c cs =>
      cases hc : p c with
      | true => simp [run?, run, hc]
      | false => simp [run?, run, hc]

end Stepwise.Text
