import Mathlib.Data.List.DropRight
import Stepwise.Text.Blank

/-!
# White space at the ends of a text

A trimmed text is what is left between the white space at the two ends. It is empty exactly when
the text was white space throughout.
-/

namespace Stepwise

namespace Text

/-- A text is what is left of another one when the white space at its two ends is taken away. -/
structure IsTrimOf (core text : String) : Prop where
  ends : ∃ front back, text.toList = front ++ core.toList ++ back ∧
    (∀ ch ∈ front, isBlank ch = true) ∧ ∀ ch ∈ back, isBlank ch = true
  head : ∀ ch ∈ core.toList.head?, isBlank ch = false
  last : ∀ ch ∈ core.toList.getLast?, isBlank ch = false

theorem toList_trim (text : String) :
    (trim text).toList = (text.toList.dropWhile isBlank).rdropWhile isBlank := by
  rw [trim, String.toList_ofList]
  rfl

theorem isTrimOf_trim (text : String) : IsTrimOf (trim text) text := by
  have hfront : text.toList.takeWhile isBlank ++ text.toList.dropWhile isBlank = text.toList :=
    List.takeWhile_append_dropWhile
  refine ⟨⟨text.toList.takeWhile isBlank, (text.toList.dropWhile isBlank).rtakeWhile isBlank,
    ?_, fun ch => List.mem_takeWhile_imp, fun ch => List.mem_rtakeWhile_imp⟩, ?_, ?_⟩
  · rw [toList_trim, List.append_assoc, List.rdropWhile_append_rtakeWhile, hfront]
  · intro ch hch
    rw [toList_trim] at hch
    obtain ⟨rest, hrest⟩ := List.rdropWhile_prefix isBlank (text.toList.dropWhile isBlank)
    have hhead := List.head?_dropWhile_not isBlank text.toList
    rw [← hrest, List.head?_append, hch] at hhead
    exact hhead
  · intro ch hch
    rw [toList_trim] at hch
    obtain ⟨hne, rfl⟩ := List.mem_getLast?_eq_getLast hch
    exact Bool.eq_false_iff.mpr (List.rdropWhile_last_not isBlank _ hne)

/-- Nothing is left just of the texts that are white space throughout. -/
theorem IsTrimOf.eq_empty_iff {core text : String} (h : IsTrimOf core text) :
    core = "" ↔ isBlankText text = true := by
  obtain ⟨⟨front, back, htext, hfront, hback⟩, hhead, -⟩ := h
  rw [isBlankText, List.all_eq_true, htext]
  constructor
  · rintro rfl ch hch
    rcases List.mem_append.mp (by simpa using hch) with hch | hch
    · exact hfront ch hch
    · exact hback ch hch
  · intro hall
    cases hcore : core.toList with
    | nil => exact String.toList_eq_nil_iff.mp hcore
    | cons ch rest =>
        have hblank : isBlank ch = true := hall ch (by simp [hcore])
        have hsolid : isBlank ch = false := hhead ch (by simp [hcore])
        rw [hblank] at hsolid
        cases hsolid

theorem trim_ne_empty {text : String} (h : isBlankText text = false) : trim text ≠ "" := by
  intro hempty
  rw [(isTrimOf_trim text).eq_empty_iff, h] at hempty
  cases hempty

end Text

end Stepwise
