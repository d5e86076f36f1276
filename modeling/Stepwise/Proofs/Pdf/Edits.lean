import Stepwise.Proofs.Pdf.Flatten
import Stepwise.Proofs.Pdf.TextString

/-!
# Filling a field

A form is opened and then changed by calls. No call changes the index, and every name in it leads
to a dictionary. Filling writes into the dictionary of one field: the value is read back as it was
given, and a field with a dictionary of its own keeps what it holds. A call that fails says why and
leaves the form as it is.
-/

namespace Stepwise.Pdf

open Document (Changed ChangesOnly)
open Ordered (find?)

namespace Document

/-- The entry of a name in the dictionary behind a number. -/
def valueOf? (document : Document) (number : Nat) (key : String) : Option Object :=
  (document.dictionary? number).bind (find? · key)

theorem valueOf?_of_dictionaryAt {document : Document} {number place : Nat} {entries : Dictionary}
    (h : document.dictionaryAt number = .ok (place, entries)) (key : String) :
    document.valueOf? number key = find? entries key := by
  rw [valueOf?, dictionary?_of_dictionaryAt h, Option.bind_some]

/-- A dictionary at another place is the one it was. -/
theorem dictionary?_of_place?_ne {document document' : Document} {place : Nat}
    {change : Dictionary → Dictionary}
    (h : Changed (fun at' entries => if at' = place then change entries else entries)
      document document') {number : Nat} (hne : document.place? number ≠ some place) :
    document'.dictionary? number = document.dictionary? number := by
  rcases h.exists_dictionary? number with ⟨hnone, hnone'⟩ | ⟨place', entries, hat, hsome, hsome'⟩
  · rw [hnone, hnone']
  · have hplace : place' ≠ place := by
      intro heq
      subst heq
      exact hne (place?_eq_some_iff.mpr ⟨entries, hat⟩)
    rw [hsome, hsome', if_neg hplace]

end Document

/-- A call that changes a form. -/
inductive Edit where
  | fill (name value : String)
  | flatten

namespace Form

/-- The form that a call gives. -/
def edit (form : Form) : Edit → Except FormError Form
  | .fill name value => form.setTextField name value
  | .flatten => form.flatten

/-- The form after a call; one that fails leaves it as it is. -/
def after (form : Form) (call : Edit) : Form :=
  match form.edit call with
  | .ok next => next
  | .error _ => form

/-- The form after some calls. -/
def editedBy (form : Form) (calls : List Edit) : Form :=
  calls.foldl after form

/-! ## One call -/

/-- A form with a value filled into the dictionary at a place. -/
structure FilledAt (form : Form) (place : Nat) (value : String) (filled : Form) : Prop where
  fields : filled.fields = form.fields
  slot : filled.slot = form.slot
  changed : Changed (fun at' entries => if at' = place then Form.filled value entries else entries)
    form.document filled.document

section SetTextField

variable {form : Form} {name value : String} {number place : Nat} {field : Dictionary}

theorem setTextField_of_unknown (h : form.fields.find? name = none) :
    form.setTextField name value = .error (.fieldNotFound name) := by
  simp only [setTextField, h]

theorem setTextField_of_other_type (h : form.fields.find? name = some number)
    (hat : form.document.dictionaryAt number = .ok (place, field))
    (htype : takesText field = false) :
    form.setTextField name value =
      .error (.malformed ("field '" ++ name ++ "' is not a text field")) := by
  simp [setTextField, h, hat, htype]

/-- A field that takes text is filled, and nothing happens elsewhere. -/
theorem setTextField_of_takesText (h : form.fields.find? name = some number)
    (hat : form.document.dictionaryAt number = .ok (place, field))
    (htype : takesText field = true) :
    ∃ filled, form.setTextField name value = .ok filled ∧ form.FilledAt place value filled := by
  obtain ⟨document, hchange, hchanged⟩ :=
    Document.changeDictionary_of_dictionaryAt hat (Form.filled value)
  refine ⟨{ form with document }, ?_, rfl, rfl, hchanged⟩
  simp [setTextField, h, hat, htype, hchange]

theorem after_fill_of_error {error : FormError}
    (h : form.setTextField name value = .error error) : form.after (.fill name value) = form := by
  have hedit : form.edit (.fill name value) = .error error := h
  rw [after, hedit]

end SetTextField

theorem sharesPlace_iff {form : Form} {number other place place' : Nat}
    (h : form.document.place? number = some place)
    (h' : form.document.place? other = some place') :
    form.SharesPlace number other ↔ place = place' := by
  constructor
  · rintro ⟨shared, hshared, hshared'⟩
    rw [h] at hshared
    rw [h'] at hshared'
    exact (Option.some.inj hshared).trans (Option.some.inj hshared').symm
  · rintro rfl
    exact ⟨place, h, h'⟩

/-- The entries of a filled field. -/
theorem find?_filled {field : Dictionary} (hn : (Ordered.keys field).Nodup) (value key : String) :
    find? (filled value field) key =
      if key = "AP" then none else if key = "V" then some (encodeText value)
        else find? field key := by
  rw [filled, Dictionary.find?_remove (Ordered.keys_nodup_set hn _ _), Ordered.find?_set]
  simp only [eq_comm]

theorem takesText_eq_false_iff (field : Dictionary) :
    takesText field = false ↔ ∃ type, find? field "FT" = some (.name type) ∧ type ≠ "Tx" := by
  rw [takesText, Dictionary.name?]
  constructor
  · intro h
    split at h
    · cases h
    · next type htype =>
      obtain ⟨object, hobject, hname⟩ := Option.bind_eq_some_iff.mp htype
      cases object <;> cases hname
      exact ⟨type, hobject, by simpa using h⟩
  · rintro ⟨type, htype, hne⟩
    simp [htype, Object.asName?, hne]

/-! ## All calls -/

/-- A form that was opened, whatever calls came after: its index is filled with its terminal fields
and leads to dictionaries. -/
structure IsOpen (form : Form) : Prop extends form.IsSound where
  index : form.fields = Ordered.ofPairs form.terminals

theorem isOpen_of_ofDocument {document : Document} {form : Form}
    (hdistinct : document.HasDistinctNames) (h : ofDocument document = .ok form) :
    form.IsOpen :=
  { isSound_of_ofDocument hdistinct h with index := (of_ofDocument h).2.2 }

/-- The index of an open form leads to dictionaries. -/
theorem IsSound.exists_dictionaryAt {form : Form} (h : form.IsSound) {name : String} {number : Nat}
    (hfound : form.fields.find? name = some number) :
    ∃ place field, form.document.dictionaryAt number = .ok (place, field) := by
  obtain ⟨place, hplace⟩ := h.fields number
    (List.mem_map.mpr ⟨_, Ordered.mem_of_find? hfound, rfl⟩)
  exact ⟨place, Document.place?_eq_some_iff.mp hplace⟩

/-- A call that succeeds gives an open form with the same index and slot. -/
theorem IsOpen.edit {form form' : Form} (h : form.IsOpen) {call : Edit}
    (hcall : form.edit call = .ok form') :
    form'.IsOpen ∧ form'.fields = form.fields ∧ form'.slot = form.slot := by
  cases call with
  | fill name value =>
      -- the entries that filling touches are none of those that the index is read from
      have hdiffers : DiffersOnly ["V", "AP"] form form' := setTextField_differsOnly hcall
      have hterminals := hdiffers.terminals_eq h.distinct (by simp)
      have hsound := h.toIsSound.differsOnly hdiffers (by simp) (by simp)
      refine ⟨{ hsound with index := ?_ }, hdiffers.fields, hdiffers.slot⟩
      rw [hdiffers.fields, hterminals, h.index]
  | flatten =>
      obtain ⟨flat, hflatten, hslot, hchanged⟩ := exists_flatten h.toIsSound
      obtain rfl : flat = form' := Except.ok.inj (hflatten.symm.trans hcall)
      have hfields := fields_flatten hflatten
      have hterminals := terminals_flattened h.toIsSound hslot hchanged
      refine ⟨{ h.toIsSound.flattened hflatten hslot hchanged with index := ?_ }, hfields, hslot⟩
      rw [hfields, hterminals, h.index]

theorem IsOpen.after {form : Form} (h : form.IsOpen) (call : Edit) :
    (form.after call).IsOpen ∧ (form.after call).fields = form.fields ∧
      (form.after call).slot = form.slot := by
  rw [Form.after]
  cases hcall : form.edit call with
  | ok next => exact h.edit hcall
  | error e => exact ⟨h, rfl, rfl⟩

/-- A form stays open, and its index and slot stay what they were when the form was opened. -/
theorem IsOpen.editedBy {form : Form} (h : form.IsOpen) (calls : List Edit) :
    (form.editedBy calls).IsOpen ∧ (form.editedBy calls).fields = form.fields ∧
      (form.editedBy calls).slot = form.slot := by
  induction calls generalizing form with
  | nil => exact ⟨h, rfl, rfl⟩
  | cons call rest ih =>
      obtain ⟨hopen, hfields, hslot⟩ := h.after call
      obtain ⟨hopen', hfields', hslot'⟩ := ih hopen
      exact ⟨hopen', hfields'.trans hfields, hslot'.trans hslot⟩

/-- A document that is opened and then changed by calls gives an open form with the index and the
slot of the beginning. -/
theorem isOpen_of_calls {document : Document} (hdistinct : document.HasDistinctNames)
    {opened form : Form} (h : ofDocument document = .ok opened) {calls : List Edit}
    (hform : opened.editedBy calls = form) :
    form.IsOpen ∧ form.fields = opened.fields ∧ form.slot = opened.slot := by
  rw [← hform]
  exact (isOpen_of_ofDocument hdistinct h).editedBy calls

/-- Every answer that filling a field can give. -/
theorem IsOpen.setTextField_cases {form : Form} (h : form.IsOpen) (name value : String) :
    (form.fields.find? name = none ∧
      form.setTextField name value = .error (.fieldNotFound name)) ∨
    ∃ number place field, form.fields.find? name = some number ∧
      form.document.dictionaryAt number = .ok (place, field) ∧
      ((∃ type, form.document.valueOf? number "FT" = some (.name type) ∧ type ≠ "Tx" ∧
          form.setTextField name value =
            .error (.malformed ("field '" ++ name ++ "' is not a text field"))) ∨
        ((∀ type, form.document.valueOf? number "FT" = some (.name type) → type = "Tx") ∧
          ∃ filled, form.setTextField name value = .ok filled ∧
            form.FilledAt place value filled)) := by
  cases hfound : form.fields.find? name with
  | none => exact Or.inl ⟨rfl, setTextField_of_unknown hfound⟩
  | some number =>
      obtain ⟨place, field, hat⟩ := h.toIsSound.exists_dictionaryAt hfound
      refine Or.inr ⟨number, place, field, rfl, hat, ?_⟩
      rw [Document.valueOf?_of_dictionaryAt hat]
      cases htype : takesText field with
      | false =>
          obtain ⟨type, hft, hne⟩ := (takesText_eq_false_iff field).mp htype
          exact Or.inl ⟨type, hft, hne, setTextField_of_other_type hfound hat htype⟩
      | true =>
          refine Or.inr ⟨?_, setTextField_of_takesText hfound hat htype⟩
          intro type hft
          by_contra hne
          have hfalse := (takesText_eq_false_iff field).mpr ⟨type, hft, hne⟩
          rw [htype] at hfalse
          cases hfalse

/-- A field that was filled takes text, and it is changed at its place. -/
theorem IsOpen.of_setTextField {form filled : Form} (h : form.IsOpen) {name value : String}
    (hfilled : form.setTextField name value = .ok filled) :
    ∃ number place field, form.fields.find? name = some number ∧
      form.document.dictionaryAt number = .ok (place, field) ∧
      (∀ type, form.document.valueOf? number "FT" = some (.name type) → type = "Tx") ∧
      form.FilledAt place value filled := by
  rcases h.setTextField_cases name value with
    ⟨-, herror⟩ | ⟨number, place, field, hfound, hat, ⟨_, -, -, herror⟩ | ⟨htype, hok⟩⟩
  · cases herror.symm.trans hfilled
  · cases herror.symm.trans hfilled
  · obtain ⟨filled', hfilled', hat'⟩ := hok
    obtain rfl : filled' = filled := Except.ok.inj (hfilled'.symm.trans hfilled)
    exact ⟨number, place, field, hfound, hat, htype, hat'⟩

/-- What keeps a field from being filled. -/
theorem IsOpen.of_setTextField_error {form : Form} (h : form.IsOpen) {name value : String}
    {error : FormError} (herror : form.setTextField name value = .error error) :
    form.fields.find? name = none ∧ error = .fieldNotFound name ∨
      ∃ number type, form.fields.find? name = some number ∧
        form.document.valueOf? number "FT" = some (.name type) ∧ type ≠ "Tx" ∧
        error = .malformed ("field '" ++ name ++ "' is not a text field") := by
  rcases h.setTextField_cases name value with
    ⟨hnone, herror'⟩ | ⟨number, place, field, hfound, hat, ⟨type, htype, hne, herror'⟩ | ⟨-, hok⟩⟩
  · exact Or.inl ⟨hnone, Except.error.inj (herror.symm.trans herror')⟩
  · exact Or.inr ⟨number, type, hfound, htype, hne, Except.error.inj (herror.symm.trans herror')⟩
  · obtain ⟨filled, hfilled, -⟩ := hok
    cases herror.symm.trans hfilled

/-! ## What a form shows -/

theorem textValue?_eq (form : Form) (name : String) :
    form.textValue? name =
      (((form.fields.find? name).bind (form.document.valueOf? · "V")).bind
        Object.asBytes?).map decodeText := by
  rw [textValue?, field?]
  cases form.fields.find? name with
  | none => rfl
  | some number =>
      simp only [Option.bind_some, Document.valueOf?]
      cases form.document.dictionary? number <;> rfl

theorem isReadOnly_iff (form : Form) (name : String) :
    form.isReadOnly name = true ↔
      ∃ number, form.fields.find? name = some number ∧ form.IsLocked number := by
  rw [isReadOnly, field?]
  cases form.fields.find? name with
  | none => simp
  | some number =>
      simp only [Option.bind_some, Option.some.injEq, exists_eq_left', IsLocked]
      cases form.document.dictionary? number with
      | none => simp
      | some field =>
          have hflags : flags field = ((find? field "Ff").bind Object.asInt?).getD 0 := rfl
          simp only [Option.bind_some, hflags]
          cases find? field "Ff" with
          | none => simp
          | some object => cases object <;> simp [Object.asInt?]

/-- A form that differs in other entries shows the same texts. -/
theorem textValue?_congr {form form' : Form} (hfields : form'.fields = form.fields) {name : String}
    (h : ∀ number, form.fields.find? name = some number →
      form'.document.valueOf? number "V" = form.document.valueOf? number "V") :
    form'.textValue? name = form.textValue? name := by
  rw [textValue?_eq, textValue?_eq, hfields]
  cases hfound : form.fields.find? name with
  | none => rfl
  | some number => rw [Option.bind_some, Option.bind_some, h number hfound]

theorem isReadOnly_congr {form form' : Form} (hfields : form'.fields = form.fields) {name : String}
    (h : ∀ number, form.fields.find? name = some number →
      form'.document.valueOf? number "Ff" = form.document.valueOf? number "Ff") :
    form'.isReadOnly name = form.isReadOnly name := by
  rw [Bool.eq_iff_iff, isReadOnly_iff, isReadOnly_iff, hfields]
  refine exists_congr fun number => and_congr_right fun hfound => ?_
  have hsame := h number hfound
  rw [Document.valueOf?, Document.valueOf?] at hsame
  rw [IsLocked, IsLocked, hsame]

/-! ## Reading back -/

section FilledAt

variable {form filled : Form} {name value : String} {number place : Nat} {field : Dictionary}

/-- The field shows the value that was filled in. -/
theorem FilledAt.textValue? (h : form.FilledAt place value filled) (hopen : form.IsOpen)
    (hfound : form.fields.find? name = some number)
    (hat : form.document.dictionaryAt number = .ok (place, field)) :
    filled.textValue? name = some value := by
  have hn := hopen.distinct number field (Document.dictionary?_of_dictionaryAt hat)
  have hat' := h.changed.dictionaryAt hat
  rw [if_pos rfl] at hat'
  have hvalue : filled.document.valueOf? number "V" = some (encodeText value) := by
    rw [Document.valueOf?_of_dictionaryAt hat', find?_filled hn, if_neg (by decide), if_pos rfl]
  calc
    filled.textValue? name = (encodeText value).asBytes?.map decodeText := by
      rw [textValue?_eq, h.fields, hfound, Option.bind_some, hvalue, Option.bind_some]
    _ = some value := decodeText_encodeText value

/-- Only the entries for value and appearance change. -/
theorem FilledAt.valueOf? (h : form.FilledAt place value filled) (hopen : form.IsOpen)
    {key : String} (hkey : key ∉ ["V", "AP"]) (other : Nat) :
    filled.document.valueOf? other key = form.document.valueOf? other key :=
  Document.dictionary?_find?_changed hopen.distinct h.changed
    ((changesOnly_filled value).ite (· = place)) hkey other

/-- A number that leads elsewhere leads to the dictionary it led to. -/
theorem FilledAt.dictionary? (h : form.FilledAt place value filled)
    (hplace : form.document.place? number = some place) {other : Nat}
    (hshared : ¬form.SharesPlace number other) :
    filled.document.dictionary? other = form.document.dictionary? other := by
  apply Document.dictionary?_of_place?_ne h.changed
  intro heq
  exact hshared ⟨place, hplace, heq⟩

/-- A field whose dictionary is kept shows what it did. -/
theorem shows_same {other : Nat} {otherName : String} (hfields : filled.fields = form.fields)
    (hother : form.fields.find? otherName = some other)
    (hsame : filled.document.dictionary? other = form.document.dictionary? other) :
    filled.textValue? otherName = form.textValue? otherName ∧
      filled.isReadOnly otherName = form.isReadOnly otherName := by
  have hvalues (key : String) (number : Nat) (hnumber : form.fields.find? otherName = some number) :
      filled.document.valueOf? number key = form.document.valueOf? number key := by
    obtain rfl := Option.some.inj (hother.symm.trans hnumber)
    rw [Document.valueOf?, Document.valueOf?, hsame]
  constructor
  · exact textValue?_congr hfields (hvalues "V")
  · exact isReadOnly_congr hfields (hvalues "Ff")

end FilledAt

/-- Whatever was called before, the index is the one of the opened form, and each text is read from
the string that is written for it. A field that is filled shows the value. Only the entries for
value and appearance change, and only in its own dictionary, so a field that stands elsewhere shows
what it did. A call that fails names a field that is not there or that has another type, and the
form stays. -/
theorem fill_reads_back {document : Document} (hdistinct : document.HasDistinctNames)
    {opened form : Form} (h : ofDocument document = .ok opened) {calls : List Edit}
    (hform : opened.editedBy calls = form) (name value : String) :
    form.fields = opened.fields ∧
    (encodeText value).asBytes?.map decodeText = some value ∧
    (∀ filled, form.setTextField name value = .ok filled →
      filled.fields = form.fields ∧ filled.textValue? name = some value ∧
      ∃ number, form.fields.find? name = some number ∧
        (∀ other key, key ∉ ["V", "AP"] →
          filled.document.valueOf? other key = form.document.valueOf? other key) ∧
        (∀ other, ¬form.SharesPlace number other →
          filled.document.dictionary? other = form.document.dictionary? other) ∧
        ∀ otherName other, form.fields.find? otherName = some other →
          ¬form.SharesPlace number other →
          filled.textValue? otherName = form.textValue? otherName ∧
          filled.isReadOnly otherName = form.isReadOnly otherName) ∧
    (∀ error, form.setTextField name value = .error error →
      form.after (.fill name value) = form ∧
      (form.fields.find? name = none ∧ error = .fieldNotFound name ∨
        ∃ number type, form.fields.find? name = some number ∧
          form.document.valueOf? number "FT" = some (.name type) ∧ type ≠ "Tx" ∧
          error = .malformed ("field '" ++ name ++ "' is not a text field"))) := by
  obtain ⟨hopen, hfields, -⟩ := isOpen_of_calls hdistinct h hform
  refine ⟨hfields, decodeText_encodeText value, ?_, ?_⟩
  · intro filled hfilled
    obtain ⟨number, place, field, hfound, hat, -, hfill⟩ := hopen.of_setTextField hfilled
    have hplace := Document.place?_eq_some_iff.mpr ⟨field, hat⟩
    refine ⟨hfill.fields, hfill.textValue? hopen hfound hat, number, hfound, ?_, ?_, ?_⟩
    · intro other key hkey
      exact hfill.valueOf? hopen hkey other
    · intro other hshared
      exact hfill.dictionary? hplace hshared
    · intro otherName other hother hshared
      exact shows_same hfill.fields hother (hfill.dictionary? hplace hshared)
  · intro error herror
    exact ⟨after_fill_of_error herror, hopen.of_setTextField_error herror⟩

/-- A field `t` that stands in two containers, and a field `u` apart from them. -/
def sharedDocument : Document where
  objects := [
    (1, .dict [("AcroForm", .dict [("Fields", .arr [.ref 2, .ref 3, .ref 5])])]),
    (2, .dict [("T", .bytes .literal [112]), ("Kids", .arr [.ref 4])]),
    (3, .dict [("T", .bytes .literal [113]), ("Kids", .arr [.ref 4])]),
    (4, .dict [("AP", .dict []), ("FT", .name "Tx"), ("T", .bytes .literal [116])]),
    (5, .dict [("T", .bytes .literal [117]), ("Ff", .int 4096)])]
  trailer := [("Root", .ref 1)]

/-- Filled through one container, the field shows its value under both names, and the field beside
it still shows what was filled in after an earlier flattening. -/
theorem fill_reads_back_shared :
    ∃ opened form filled, ofDocument sharedDocument = .ok opened ∧
      opened.editedBy [.flatten, .fill "u" "x", .fill "v" "y"] = form ∧
      form.setTextField "p.t" "é😀" = .ok filled ∧ filled.textValue? "p.t" = some "é😀" ∧
      filled.textValue? "q.t" = some "é😀" ∧ filled.textValue? "u" = some "x" ∧
      filled.isReadOnly "u" = true := by
  have hopen : ofDocument sharedDocument =
      .ok ⟨sharedDocument, [("p.t", 4), ("q.t", 4), ("u", 5)], .inCatalog 1⟩ := rfl
  have hcalls : Form.editedBy ⟨sharedDocument, [("p.t", 4), ("q.t", 4), ("u", 5)], .inCatalog 1⟩
      [.flatten, .fill "u" "x", .fill "v" "y"] = _ := rfl
  have hdistinct : sharedDocument.HasDistinctNames :=
    Document.hasDistinctNames_of_all (by decide)
  obtain ⟨-, -, hfill, -⟩ := fill_reads_back hdistinct hopen hcalls "p.t" "é😀"
  obtain ⟨-, hvalue, number, hnumber, -, -, hother⟩ := hfill _ rfl
  obtain rfl : 4 = number := Option.some.inj hnumber
  obtain ⟨htext, hflag⟩ := hother "u" 5 rfl (mt (sharesPlace_iff rfl rfl).mp (by decide))
  exact ⟨_, _, _, rfl, rfl, rfl, hvalue, rfl, htext, hflag⟩

end Form

end Stepwise.Pdf
