import Mathlib.Data.Int.Bitwise
import Stepwise.Proofs.Pdf.Edits

/-!
# A flattened form

An opened form can be flattened after any calls. Afterwards every indexed field is read-only, the
other flags and all texts are what they were, and the form asks for new appearances. To flatten it
once more writes what is already there. What a place holds after a write is all that is stored under
its number, so to write it again gives the same document.
-/

namespace Stepwise.Pdf

open Document (Changed ChangesOnly)
open Ordered (find? set)

/-! ## Writing what is there -/

namespace Document

variable {document document' : Document} {number place other : Nat} {entries : Dictionary}

theorem replace_replace (document : Document) (place : Nat) (object object' : Object) :
    (document.replace place object).replace place object' = document.replace place object' := by
  simp only [replace, List.map_map]
  congr 1
  apply List.map_congr_left
  intro slot _
  by_cases hslot : slot.1 = place <;> simp [hslot]

theorem replace_comm (document : Document) (hne : place ≠ other) (object object' : Object) :
    (document.replace place object).replace other object' =
      (document.replace other object').replace place object := by
  simp only [replace, List.map_map]
  congr 1
  apply List.map_congr_left
  intro slot _
  obtain ⟨k, v⟩ := slot
  by_cases hslot : k = place
  · subst hslot
    simp [hne]
  · by_cases hother : k = other
    · simp [hother, Ne.symm hne]
    · simp [hslot, hother]

/-- To write the object of a place again changes nothing. -/
def IsSettled (document : Document) (place : Nat) : Prop :=
  ∀ object, document.entry? place = some object → document.replace place object = document

theorem isSettled_replace (document : Document) (place : Nat) (object : Object) :
    (document.replace place object).IsSettled place := by
  intro found hfound
  rw [entry?_replace] at hfound
  obtain ⟨_, -, rfl⟩ := Option.map_eq_some_iff.mp hfound
  rw [if_pos rfl, replace_replace]

theorem IsSettled.replace (h : document.IsSettled place) (other : Nat) (object : Object) :
    (document.replace other object).IsSettled place := by
  by_cases hsame : other = place
  · subst hsame
    exact isSettled_replace document other object
  · intro found hfound
    rw [entry?_replace] at hfound
    obtain ⟨old, hold, rfl⟩ := Option.map_eq_some_iff.mp hfound
    rw [if_neg (Ne.symm hsame), replace_comm document hsame, h old hold]

/-- A change writes at the place of the number and nowhere else. -/
theorem of_changeDictionary {change : Dictionary → Dictionary}
    (h : document.changeDictionary number change = .ok document') :
    (∃ place, document.place? number = some place ∧ document'.IsSettled place) ∧
      (∀ other, document.IsSettled other → document'.IsSettled other) ∧
      document'.place? = document.place? := by
  cases hat : document.dictionaryAt number with
  | error e =>
      rw [changeDictionary, hat] at h
      cases h
  | ok found =>
      obtain ⟨place, entries⟩ := found
      obtain ⟨document₁, hchange, hchanged⟩ := changeDictionary_of_dictionaryAt hat change
      obtain rfl : document₁ = document' := Except.ok.inj (hchange.symm.trans h)
      have hreplaced : document₁ = document.replace place (.dict (change entries)) := by
        rw [changeDictionary, hat] at h
        exact (Except.ok.inj h).symm
      refine ⟨⟨place, place?_eq_some_iff.mpr ⟨entries, hat⟩, ?_⟩, ?_, funext hchanged.place?⟩
      · rw [hreplaced]
        exact isSettled_replace document place _
      · intro other hother
        rw [hreplaced]
        exact hother.replace place _

theorem changeDictionary_eq_self (hat : document.dictionaryAt number = .ok (place, entries))
    (hsettled : document.IsSettled place) {change : Dictionary → Dictionary}
    (hchange : change entries = entries) :
    document.changeDictionary number change = .ok document := by
  rw [changeDictionary, hat]
  simp only [hchange, hsettled _ (entry?_of_dictionaryAt hat)]

end Document

namespace Form

theorem lockAll_cons (document : Document) (number : Nat) (rest : List Nat) :
    lockAll document (number :: rest) =
      match document.changeDictionary number lock with
      | .error e => .error e
      | .ok document => lockAll document rest :=
  rfl

/-- The places of locked fields are settled, and the settled places stay so. -/
theorem of_lockAll {document document' : Document} {numbers : List Nat}
    (h : lockAll document numbers = .ok document') :
    (∀ number ∈ numbers, ∃ place, document.place? number = some place ∧
        document'.IsSettled place) ∧
      (∀ other, document.IsSettled other → document'.IsSettled other) ∧
      document'.place? = document.place? := by
  induction numbers generalizing document with
  | nil =>
      obtain rfl : document = document' := Except.ok.inj h
      exact ⟨by simp, fun _ hother => hother, rfl⟩
  | cons number rest ih =>
      rw [lockAll_cons] at h
      cases hchange : document.changeDictionary number lock with
      | error e =>
          rw [hchange] at h
          cases h
      | ok document₁ =>
          rw [hchange] at h
          obtain ⟨⟨place, hplace, hsettled⟩, hkept, hplaces⟩ := Document.of_changeDictionary hchange
          obtain ⟨hrest, hkept', hplaces'⟩ := ih h
          rw [hplaces] at hrest hplaces'
          refine ⟨?_, fun other hother => hkept' other (hkept other hother), hplaces'⟩
          -- the locks that come later may write at the first place too, and it stays settled
          intro number' hnumber'
          rcases List.mem_cons.mp hnumber' with rfl | hmem
          · exact ⟨place, hplace, hkept' place hsettled⟩
          · exact hrest number' hmem

theorem lockAll_eq_self {document : Document} {numbers : List Nat}
    (h : ∀ number ∈ numbers, document.changeDictionary number lock = .ok document) :
    lockAll document numbers = .ok document := by
  induction numbers with
  | nil => rfl
  | cons number rest ih =>
      obtain ⟨hnumber, hrest⟩ := List.forall_mem_cons.mp h
      rw [lockAll_cons, hnumber]
      exact ih hrest

theorem lock_eq_self {field : Dictionary} {flags : Int} (h : find? field "Ff" = some (.int flags))
    (hodd : flags % 2 = 1) : lock field = field := by
  have hflags : Form.flags field = flags := by
    rw [Form.flags, Dictionary.int?, h]
    rfl
  rw [lock, hflags, locked, if_pos (beq_iff_eq.mpr hodd)]
  exact Ordered.set_eq_self h

/-! ## Asking for appearances -/

/-- The catalog holds the dictionary of the form. -/
theorem find?_acroForm {number : Nat} {entries form : Dictionary}
    (h : FormSlot.form? (.inCatalog number) entries = some form) :
    find? entries "AcroForm" = some (.dict form) := by
  obtain ⟨object, hobject, hdict⟩ := Option.bind_eq_some_iff.mp h
  cases object <;> cases hdict
  exact hobject

theorem asking_inCatalog {number : Nat} {entries form : Dictionary}
    (h : find? entries "AcroForm" = some (.dict form)) :
    asking (.inCatalog number) entries =
      set entries "AcroForm" (.dict (set form "NeedAppearances" (.bool true))) := by
  simp only [asking, h]

theorem asking_of_form?_eq_none {slot : FormSlot} {entries : Dictionary}
    (h : slot.form? entries = none) : asking slot entries = entries := by
  cases slot with
  | referenced number => cases h
  | inCatalog number =>
      simp only [asking]
      split
      · next form hform => simp [FormSlot.form?, hform, Object.asDictionary?] at h
      · rfl

/-- To ask twice is to ask once. -/
theorem asking_asking (slot : FormSlot) (entries : Dictionary) :
    asking slot (asking slot entries) = asking slot entries := by
  cases slot with
  | referenced number => exact Ordered.set_set _ _ _ _
  | inCatalog number =>
      cases hfound : FormSlot.form? (.inCatalog number) entries with
      | none => rw [asking_of_form?_eq_none hfound, asking_of_form?_eq_none hfound]
      | some form =>
          have hform := find?_acroForm hfound
          have hasked : find? (asking (.inCatalog number) entries) "AcroForm" =
              some (.dict (set form "NeedAppearances" (.bool true))) := by
            rw [asking_inCatalog hform, Ordered.find?_set_self]
          rw [asking_inCatalog hasked, asking_inCatalog hform, Ordered.set_set, Ordered.set_set]

/-- A form that was asked for appearances says so. -/
theorem find?_needAppearances {slot : FormSlot} {entries form : Dictionary}
    (h : slot.form? (asking slot entries) = some form) :
    find? form "NeedAppearances" = some (.bool true) := by
  cases slot with
  | referenced number =>
      obtain rfl := Option.some.inj h
      exact Ordered.find?_set_self _ _ _
  | inCatalog number =>
      cases hfound : FormSlot.form? (.inCatalog number) entries with
      | none =>
          rw [asking_of_form?_eq_none hfound, hfound] at h
          cases h
      | some before =>
          have hasked := find?_acroForm h
          rw [asking_inCatalog (find?_acroForm hfound), Ordered.find?_set_self] at hasked
          cases hasked
          exact Ordered.find?_set_self _ _ _

/-- To ask for appearances is one change of the dictionary that is or holds the form. -/
theorem askForAppearances_eq {document : Document} {slot : FormSlot} {form : Dictionary}
    (h : dictionary document slot = .ok form) :
    askForAppearances document slot = document.changeDictionary slot.number (asking slot) := by
  cases slot with
  | referenced number => rfl
  | inCatalog number =>
      obtain ⟨entries, hentries, hform⟩ := Option.bind_eq_some_iff.mp
        ((dictionary_eq_ok_iff document _ form).mp h)
      obtain ⟨place, hat⟩ := Document.exists_dictionaryAt hentries
      have hat' : document.dictionaryAt number = .ok (place, entries) := hat
      simp only [askForAppearances, h, Document.changeDictionary, FormSlot.number, hat',
        asking_inCatalog (find?_acroForm hform)]

/-! ## Flattening once more -/

section Flattened

variable {form flat : Form} (h : form.IsSound) (hflatten : form.flatten = .ok flat)
include h hflatten

/-- What flattening does to a form. -/
theorem IsSound.of_flatten :
    flat.fields = form.fields ∧ flat.slot = form.slot ∧ flat.IsSound ∧
      Changed form.flattening form.document flat.document := by
  obtain ⟨flat', hflatten', hslot, hchanged⟩ := exists_flatten h
  obtain rfl : flat' = flat := Except.ok.inj (hflatten'.symm.trans hflatten)
  exact ⟨fields_flatten hflatten, hslot, h.flattened hflatten hslot hchanged, hchanged⟩

/-- The places that flattening writes to are settled. -/
theorem IsSound.settled_of_flatten :
    (∀ number ∈ form.fields.values, ∃ place, form.document.place? number = some place ∧
        flat.document.IsSettled place) ∧
      ∃ place, form.document.place? form.slot.number = some place ∧
        flat.document.IsSettled place := by
  obtain ⟨document₁, hlocked, hchanged⟩ := lockAll_changed h.fields
  have hdiffers : DiffersOnly ["Ff"] form { form with document := document₁ } :=
    ⟨rfl, rfl, _, changesOnly_lock.ite _, hchanged⟩
  obtain ⟨entries, hentries⟩ := (h.differsOnly hdiffers (by simp) (by simp)).dictionary
  simp only [flatten, hlocked, askForAppearances_eq hentries] at hflatten
  cases hasked : document₁.changeDictionary form.slot.number (asking form.slot) with
  | error e =>
      rw [hasked] at hflatten
      cases hflatten
  | ok document₂ =>
      rw [hasked] at hflatten
      cases hflatten
      obtain ⟨hnumbers, -, hplaces⟩ := of_lockAll hlocked
      obtain ⟨hslot, hkept, -⟩ := Document.of_changeDictionary hasked
      rw [hplaces] at hslot
      refine ⟨fun number hnumber => ?_, hslot⟩
      obtain ⟨place, hplace, hsettled⟩ := hnumbers number hnumber
      exact ⟨place, hplace, hkept place hsettled⟩

/-- To flatten once more changes nothing. -/
theorem IsSound.flatten_flatten : flat.flatten = .ok flat := by
  obtain ⟨hfields, hslot, hsound, hchanged⟩ := h.of_flatten hflatten
  obtain ⟨hnumbers, holder, hholder, hsettled⟩ := h.settled_of_flatten hflatten
  have hlock : lockAll flat.document flat.fields.values = .ok flat.document := by
    apply lockAll_eq_self
    intro number hnumber
    rw [hfields] at hnumber
    obtain ⟨place, hplace, hsettled⟩ := hnumbers number hnumber
    obtain ⟨field, hat⟩ := Document.place?_eq_some_iff.mp hplace
    have hn := h.distinct number field (Document.dictionary?_of_dictionaryAt hat)
    have hflags := @find?_flattening form place _ hn
    -- the field is locked already, so to lock it is to write what it is
    rw [if_pos (List.mem_filterMap.mpr ⟨number, hnumber, hplace⟩)] at hflags
    exact Document.changeDictionary_eq_self (hchanged.dictionaryAt hat) hsettled
      (lock_eq_self hflags (locked_odd _))
  have hask : askForAppearances flat.document flat.slot = .ok flat.document := by
    obtain ⟨entries, hentries⟩ := hsound.dictionary
    obtain ⟨before, hat⟩ := Document.place?_eq_some_iff.mp hholder
    have hasked : asking form.slot (form.flattening holder before) =
        form.flattening holder before := by
      rw [flattening, if_pos hholder, asking_asking]
    rw [askForAppearances_eq hentries, hslot]
    exact Document.changeDictionary_eq_self (hchanged.dictionaryAt hat) hsettled hasked
  simp only [flatten, hlock, hask]

/-- The dictionary of a flattened form asks for appearances. -/
theorem IsSound.flatten_asks :
    ∃ entries, Form.dictionary flat.document flat.slot = .ok entries ∧
      find? entries "NeedAppearances" = some (.bool true) := by
  obtain ⟨-, hslot, hsound, hchanged⟩ := h.of_flatten hflatten
  obtain ⟨entries, hentries⟩ := hsound.dictionary
  refine ⟨entries, hentries, ?_⟩
  obtain ⟨-, holder, hholder, -⟩ := h.settled_of_flatten hflatten
  obtain ⟨before, hat⟩ := Document.place?_eq_some_iff.mp hholder
  have hform := (dictionary_eq_ok_iff _ _ _).mp hentries
  rw [hslot, Document.dictionary?_of_dictionaryAt (hchanged.dictionaryAt hat), Option.bind_some,
    flattening, if_pos hholder] at hform
  exact find?_needAppearances hform

end Flattened

/-! ## Flags -/

/-- The read-only flag is the first one, and the others stay as they are. -/
theorem testBit_locked (flags : Int) {bit : Nat} (h : bit ≠ 0) :
    (locked flags).testBit bit = flags.testBit bit := by
  obtain ⟨rest, rfl⟩ := Nat.exists_eq_succ_of_ne_zero h
  have hflags : flags = Int.bit flags.bodd flags.div2 := (Int.bit_decomp flags).symm
  have hlocked : locked flags = Int.bit true flags.div2 := by
    have hvalue := Int.bit_val flags.bodd flags.div2
    rw [Int.bit_decomp] at hvalue
    rw [Int.bit_val, locked]
    cases hodd : flags.bodd with
    | false =>
        rw [hodd, Bool.cond_false] at hvalue
        have heven : (flags % 2 == 1) = false := by
          rw [beq_eq_false_iff_ne]
          omega
        simp [heven]
        omega
    | true =>
        rw [hodd, Bool.cond_true] at hvalue
        have hone : (flags % 2 == 1) = true := by
          rw [beq_iff_eq]
          omega
        simp [hone]
        omega
  calc
    (locked flags).testBit (rest + 1) = flags.div2.testBit rest := by
      rw [hlocked, Int.testBit_bit_succ]
    _ = flags.testBit (rest + 1) := by
      rw [hflags, Int.testBit_bit_succ, ← hflags]

/-- Flags that are there keep all but the first one. -/
theorem IsSound.flags_flattened {form flat : Form} (h : form.IsSound)
    (hflatten : form.flatten = .ok flat) {number : Nat} {before : Int}
    (hbefore : form.document.valueOf? number "Ff" = some (.int before)) :
    ∃ after, flat.document.valueOf? number "Ff" = some (.int after) ∧
      ∀ bit, bit ≠ 0 → after.testBit bit = before.testBit bit := by
  obtain ⟨-, -, -, hchanged⟩ := h.of_flatten hflatten
  obtain ⟨entries, hentries, hflags⟩ := Option.bind_eq_some_iff.mp hbefore
  obtain ⟨place, hat⟩ := Document.exists_dictionaryAt hentries
  have hvalue : flags entries = before := by
    rw [flags, Dictionary.int?, hflags]
    rfl
  have hafter := @find?_flattening form place _ (h.distinct _ _ hentries)
  rw [hvalue, hflags] at hafter
  rw [Document.valueOf?_of_dictionaryAt (hchanged.dictionaryAt hat), hafter]
  split
  · exact ⟨locked before, rfl, fun bit hbit => testBit_locked before hbit⟩
  · exact ⟨before, rfl, fun bit _ => rfl⟩

/-- Every name in the index of a flattened form is read-only. -/
theorem IsSound.isReadOnly_flattened {form flat : Form} (h : form.IsSound)
    (hflatten : form.flatten = .ok flat) {name : String} (hname : name ∈ flat.fields.keys) :
    flat.isReadOnly name = true := by
  obtain ⟨hfields, -, -, hchanged⟩ := h.of_flatten hflatten
  rw [hfields, ← Ordered.has_iff_mem_keys, Ordered.has, Option.isSome_iff_exists] at hname
  obtain ⟨number, hnumber⟩ := hname
  have hmem : number ∈ form.fields.values :=
    List.mem_map.mpr ⟨_, Ordered.mem_of_find? hnumber, rfl⟩
  obtain ⟨place, hplace⟩ := h.fields number hmem
  rw [isReadOnly_iff, hfields]
  refine ⟨number, hnumber, ?_⟩
  exact (isLocked_flattened h.distinct hchanged number).mpr
    (Or.inr ⟨number, hmem, place, hplace, hplace⟩)

/-- Whatever was called before, an opened form can be flattened. Then every indexed name is
read-only, every flag but that one is as it was, the dictionary of the form asks for appearances,
every text is as it was, and to flatten once more changes nothing. -/
theorem flatten_after_calls {document : Document} (hdistinct : document.HasDistinctNames)
    {opened form : Form} (h : ofDocument document = .ok opened) {calls : List Edit}
    (hform : opened.editedBy calls = form) :
    ∃ flat, form.flatten = .ok flat ∧ flat.fields = opened.fields ∧ flat.slot = opened.slot ∧
      (∀ name ∈ flat.fields.keys, flat.isReadOnly name = true) ∧
      (∀ number before, form.document.valueOf? number "Ff" = some (.int before) →
        ∃ after, flat.document.valueOf? number "Ff" = some (.int after) ∧
          ∀ bit, bit ≠ 0 → after.testBit bit = before.testBit bit) ∧
      (∃ entries, dictionary flat.document flat.slot = .ok entries ∧
        find? entries "NeedAppearances" = some (.bool true)) ∧
      (∀ name, flat.textValue? name = form.textValue? name) ∧
      flat.flatten = .ok flat := by
  obtain ⟨hopen, hfields, hslot⟩ := isOpen_of_calls hdistinct h hform
  have hsound := hopen.toIsSound
  obtain ⟨flat, hflatten, -⟩ := exists_flatten hsound
  obtain ⟨hfields', hslot', -, hchanged⟩ := hsound.of_flatten hflatten
  refine ⟨flat, hflatten, hfields'.trans hfields, hslot'.trans hslot, ?_, ?_, ?_, ?_, ?_⟩
  · intro name hname
    exact hsound.isReadOnly_flattened hflatten hname
  · intro number before hbefore
    exact hsound.flags_flattened hflatten hbefore
  · exact hsound.flatten_asks hflatten
  · intro name
    apply textValue?_congr hfields'
    intro number _
    exact Document.dictionary?_find?_changed hsound.distinct hchanged form.changesOnly_flattening
      (by simp) number
  · exact hsound.flatten_flatten hflatten

/-- A catalog behind a second reference, which holds the form and is its first field. -/
def catalogFieldDocument : Document where
  objects := [
    (1, .ref 2),
    (2, .dict [("AcroForm", .dict [("Fields", .arr [.ref 1, .ref 3])]),
      ("T", .bytes .literal [99]), ("Ff", .int 4098)]),
    (3, .dict [("T", .bytes .literal [98]), ("FT", .name "Btn"), ("Ff", .int (-4)),
      ("V", .bytes .literal [120])])]
  trailer := [("Root", .ref 1)]

/-- After a filling, one that fails, a flattening and another filling both fields are locked and
show their texts. -/
theorem flatten_after_calls_catalog :
    ∃ opened form flat, ofDocument catalogFieldDocument = .ok opened ∧
      opened.editedBy [.fill "c" "é", .fill "b" "y", .flatten, .fill "c" "d"] = form ∧
      form.flatten = .ok flat ∧ flat.isReadOnly "c" = true ∧ flat.isReadOnly "b" = true ∧
      flat.textValue? "c" = some "d" ∧ flat.textValue? "b" = some "x" ∧
      flat.flatten = .ok flat := by
  have hdistinct : catalogFieldDocument.HasDistinctNames :=
    Document.hasDistinctNames_of_all (by decide)
  have hopen : ofDocument catalogFieldDocument =
      .ok ⟨catalogFieldDocument, [("c", 1), ("b", 3)], .inCatalog 1⟩ := rfl
  have hcalls : Form.editedBy ⟨catalogFieldDocument, [("c", 1), ("b", 3)], .inCatalog 1⟩
      [.fill "c" "é", .fill "b" "y", .flatten, .fill "c" "d"] = _ := rfl
  obtain ⟨flat, hflatten, hfields, -, hlocked, -, -, htexts, hagain⟩ :=
    flatten_after_calls hdistinct hopen hcalls
  have hnames : flat.fields.keys = ["c", "b"] := by rw [hfields]; rfl
  refine ⟨_, _, flat, rfl, rfl, hflatten, ?_, ?_, ?_, ?_, hagain⟩
  · exact hlocked "c" (by rw [hnames]; decide)
  · exact hlocked "b" (by rw [hnames]; decide)
  · exact (htexts "c").trans rfl
  · exact (htexts "b").trans rfl

end Form

end Stepwise.Pdf
