import Stepwise.Proofs.Pdf.Edits

/-!
# Appearances of filled fields

Filling takes the appearance out of the dictionary of the field itself. The kids of a terminal field
are its widgets and have dictionaries of their own, and an appearance that stands in one of them
stays. So a filled field shows no old appearance exactly when none of its widgets had one.
-/

namespace Stepwise.Pdf

open Ordered (find?)

/-- The numbers in the `Kids` of the field behind a number. -/
def Document.kids (document : Document) (number : Nat) : List Nat :=
  match document.dictionary? number with
  | none => []
  | some field => Dictionary.references field "Kids"

theorem Document.kids_congr {document document' : Document} {number : Nat}
    (h : document'.valueOf? number "Kids" = document.valueOf? number "Kids") :
    document'.kids number = document.kids number := by
  have hkids (document : Document) : document.kids number =
      (((document.valueOf? number "Kids").bind Object.asArray?).getD []).filterMap
        Object.asReference? := by
    rw [kids, valueOf?]
    cases document.dictionary? number <;> rfl
  rw [hkids, hkids, h]

namespace Form

/-- Whether the dictionary behind a number holds an appearance. -/
def hasAppearance (form : Form) (number : Nat) : Bool :=
  (form.document.valueOf? number "AP").isSome

/-- Filling takes out the appearance of the field, and it leaves all other ones. -/
theorem FilledAt.hasAppearance_iff {form filled : Form} {value : String} {number place : Nat}
    (h : form.FilledAt place value filled) (hopen : form.IsOpen)
    (hplace : form.document.place? number = some place) (other : Nat) :
    filled.hasAppearance other = true ↔
      form.hasAppearance other = true ∧ ¬form.SharesPlace number other := by
  rcases h.changed.exists_dictionary? other with
    ⟨hnone, hnone'⟩ | ⟨place', entries, hat', hsome, hsome'⟩
  · simp [hasAppearance, Document.valueOf?, hnone, hnone']
  · have hplace' := Document.place?_eq_some_iff.mpr ⟨entries, hat'⟩
    rw [hasAppearance, hasAppearance, Document.valueOf?, Document.valueOf?, hsome, hsome',
      Option.bind_some, Option.bind_some, sharesPlace_iff hplace hplace']
    by_cases heq : place = place'
    · have hn := hopen.distinct other entries hsome
      simp [heq, find?_filled hn]
    · simp [heq, Ne.symm heq]

/-- After a filling the field has no appearance of its own, and any other number has the appearance
that it had unless it leads to the same dictionary. So the field and its widgets show no old
appearance exactly when no widget with a dictionary of its own had one. -/
theorem widget_appearances_stay {document : Document} (hdistinct : document.HasDistinctNames)
    {opened form filled : Form} (h : ofDocument document = .ok opened) {calls : List Edit}
    (hform : opened.editedBy calls = form) {name value : String}
    (hfilled : form.setTextField name value = .ok filled) :
    ∃ number, filled.fields.find? name = some number ∧
      filled.hasAppearance number = false ∧
      filled.document.kids number = form.document.kids number ∧
      (∀ other, filled.hasAppearance other = true ↔
        form.hasAppearance other = true ∧ ¬form.SharesPlace number other) ∧
      ((∀ kid ∈ filled.document.kids number, filled.hasAppearance kid = false) ↔
        ∀ kid ∈ form.document.kids number,
          form.hasAppearance kid = true → form.SharesPlace number kid) := by
  obtain ⟨hopen, -, -⟩ := isOpen_of_calls hdistinct h hform
  obtain ⟨number, place, field, hfound, hat, -, hfill⟩ := hopen.of_setTextField hfilled
  have hplace := Document.place?_eq_some_iff.mpr ⟨field, hat⟩
  have happearance := hfill.hasAppearance_iff hopen hplace
  have hkids : filled.document.kids number = form.document.kids number :=
    Document.kids_congr (hfill.valueOf? hopen (by simp) number)
  refine ⟨number, by rw [hfill.fields, hfound], ?_, hkids, happearance, ?_⟩
  · rw [Bool.eq_false_iff]
    intro hsome
    exact ((happearance number).mp hsome).2 ⟨place, hplace, hplace⟩
  · rw [hkids]
    refine forall₂_congr fun kid _ => ?_
    rw [Bool.eq_false_iff, ne_eq, happearance kid]
    tauto

/-- A text field with two widgets; the first one holds an appearance. -/
def widgetDocument : Document where
  objects := [
    (1, .dict [("AcroForm", .ref 2)]),
    (2, .dict [("Fields", .arr [.ref 3])]),
    (3, .dict [("AP", .dict []), ("FT", .name "Tx"), ("Kids", .arr [.ref 4, .ref 5]),
      ("T", .bytes .literal [97])]),
    (4, .dict [("AP", .dict []), ("Subtype", .name "Widget")]),
    (5, .dict [("Subtype", .name "Widget")])]
  trailer := [("Root", .ref 1)]

/-- Of a field that is filled after a flattening its own appearance is gone, and the one of its
first widget is not. -/
theorem widget_appearances_stay_flattened :
    ∃ opened form filled, ofDocument widgetDocument = .ok opened ∧
      opened.editedBy [.fill "a" "", .flatten] = form ∧
      form.setTextField "a" "ü" = .ok filled ∧ filled.hasAppearance 3 = false ∧
      filled.hasAppearance 4 = true ∧ filled.hasAppearance 5 = false := by
  have hdistinct : widgetDocument.HasDistinctNames :=
    Document.hasDistinctNames_of_all (by decide)
  have hopen : ofDocument widgetDocument = .ok ⟨widgetDocument, [("a", 3)], .referenced 2⟩ := rfl
  have hcalls : Form.editedBy ⟨widgetDocument, [("a", 3)], .referenced 2⟩
      [.fill "a" "", .flatten] = _ := rfl
  have hfilled : Form.setTextField (Form.editedBy ⟨widgetDocument, [("a", 3)], .referenced 2⟩
      [.fill "a" "", .flatten]) "a" "ü" = .ok _ := rfl
  obtain ⟨number, hnumber, hown, -, hothers, -⟩ :=
    widget_appearances_stay hdistinct hopen hcalls hfilled
  obtain rfl : 3 = number := Option.some.inj hnumber
  refine ⟨_, _, _, rfl, rfl, rfl, hown, ?_, ?_⟩
  · exact (hothers 4).mpr ⟨rfl, mt (sharesPlace_iff rfl rfl).mp (by decide)⟩
  · rw [Bool.eq_false_iff]
    intro hfive
    cases ((hothers 5).mp hfive).1

/-- A filled field may have a widget with an old appearance. -/
theorem widget_keeps_old_appearance :
    ∃ opened filled, ofDocument widgetDocument = .ok opened ∧
      opened.setTextField "a" "new" = .ok filled ∧ filled.fields.find? "a" = some 3 ∧
      4 ∈ filled.document.kids 3 ∧ filled.hasAppearance 4 = true :=
  ⟨⟨widgetDocument, [("a", 3)], .referenced 2⟩, _, rfl, rfl, rfl, by decide, rfl⟩

end Form

end Stepwise.Pdf
