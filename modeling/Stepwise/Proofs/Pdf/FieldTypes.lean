import Stepwise.Proofs.Pdf.Edits

/-!
# Types of fields

The type of a field may stand on a container above it. The type that counts for a terminal field is
its own entry, or that of the nearest container on the way to it that has one. Filling looks at the
entry of the field alone: it refuses a field with another type of its own, and it fills a field with
none whatever the containers say.
-/

namespace Stepwise.Pdf

namespace Document

variable {document : Document}

/-- A field without named kids is at the end of a chain of references, under this name, behind these
containers. The outermost container comes first. -/
inductive LeadsThrough (document : Document) :
    Nat → Option String → List Nat → List Nat → String → Nat → Prop
  | atEnd {levels : Nat} {above : Option String} {references : List Nat} {number : Nat}
      {own : String} (here : number ∈ references)
      (node : document.fieldNode? number = some (own, [])) :
      LeadsThrough document (levels + 1) above references [] (qualified above own) number
  | through {levels : Nat} {above : Option String} {references kids containers : List Nat}
      {number last : Nat} {own name : String} (here : number ∈ references)
      (node : document.fieldNode? number = some (own, kids))
      (rest : LeadsThrough document levels (some (qualified above own)) kids containers name
        last) :
      LeadsThrough document (levels + 1) above references (number :: containers) name last

/-- Every terminal field is behind some containers, and nothing else is. -/
theorem leadsTo_iff_exists_containers {levels : Nat} {above : Option String}
    {references : List Nat} {name : String} {number : Nat} :
    document.LeadsTo levels above references name number ↔
      ∃ containers, document.LeadsThrough levels above references containers name number := by
  constructor
  · intro hleads
    induction hleads with
    | atEnd here node => exact ⟨[], .atEnd here node⟩
    | through here node rest ih =>
        obtain ⟨containers, hrest⟩ := ih
        exact ⟨_, .through here node hrest⟩
  · rintro ⟨containers, hleads⟩
    induction hleads with
    | atEnd here node => exact .atEnd here node
    | through here node rest ih => exact .through here node ih

/-- What is read from a field, or from the nearest of the containers above it from which something
is read. -/
def inherited? {α : Type} (document : Document) (read : Dictionary → Option α)
    (containers : List Nat) (number : Nat) : Option α :=
  (number :: containers.reverse).findSome? fun place => (document.dictionary? place).bind read

/-- What a field says itself comes before what the containers say. -/
theorem inherited?_of_own {α : Type} {read : Dictionary → Option α} {number : Nat} {value : α}
    (h : (document.dictionary? number).bind read = some value) (containers : List Nat) :
    document.inherited? read containers number = some value := by
  rw [inherited?, List.findSome?_cons, h]

end Document

namespace Form

/-- A terminal field that is reached from the `Fields` of a form through these containers. -/
def IsReached (form : Form) (containers : List Nat) (name : String) (number : Nat) : Prop :=
  form.document.LeadsThrough Document.fieldLevels none form.roots containers name number

/-- The type that counts for a field behind some containers. -/
def effectiveType? (form : Form) (containers : List Nat) (number : Nat) : Option Object :=
  form.document.inherited? (Ordered.find? · "FT") containers number

/-- A type that lets a field be filled: that of text fields, or none at all. -/
def IsTextType (type : Option Object) : Prop :=
  type = none ∨ type = some (.name "Tx")

/-- Every name in the index of an open form is that of a terminal field. -/
theorem IsOpen.exists_containers {form : Form} (h : form.IsOpen) {name : String} {number : Nat}
    (hfound : form.fields.find? name = some number) :
    ∃ containers, form.IsReached containers name number := by
  have hmem := Ordered.mem_of_find? hfound
  rw [h.index] at hmem
  have hterminal := mem_terminals.mp (Ordered.mem_of_mem_ofPairs hmem)
  exact Document.leadsTo_iff_exists_containers.mp hterminal

/-- An indexed field is filled unless its own type is another one than that of text fields. -/
theorem IsOpen.fills_iff {form : Form} (h : form.IsOpen) {name : String} {number : Nat}
    (hfound : form.fields.find? name = some number) (value : String) :
    (∃ filled, form.setTextField name value = .ok filled) ↔
      ∀ type, form.document.valueOf? number "FT" = some (.name type) → type = "Tx" := by
  rcases h.setTextField_cases name value with
    ⟨hnone, -⟩ | ⟨number', place, field, hfound', -, ⟨type, htype, hne, herror⟩ | ⟨htext, hok⟩⟩
  · cases hfound.symm.trans hnone
  · obtain rfl : number = number' := Option.some.inj (hfound.symm.trans hfound')
    constructor
    · rintro ⟨filled, hfilled⟩
      cases herror.symm.trans hfilled
    · intro htext
      exact absurd (htext type htype) hne
  · obtain rfl : number = number' := Option.some.inj (hfound.symm.trans hfound')
    obtain ⟨filled, hfilled, -⟩ := hok
    exact ⟨fun _ => htext, fun _ => ⟨filled, hfilled⟩⟩

/-- The entry of the field alone allows filling when the type that counts does, and when there is
no type name in it. -/
theorem isTextType_or_unnamed_iff (form : Form) (containers : List Nat) (number : Nat) :
    (IsTextType (form.effectiveType? containers number) ∨
        ∀ type, form.document.valueOf? number "FT" ≠ some (.name type)) ↔
      ∀ type, form.document.valueOf? number "FT" = some (.name type) → type = "Tx" := by
  by_cases hnamed : ∃ type, form.document.valueOf? number "FT" = some (.name type)
  · -- the containers do not count for a field with a type name of its own
    obtain ⟨type, hown⟩ := hnamed
    have heffective : form.effectiveType? containers number = some (.name type) :=
      Document.inherited?_of_own hown containers
    simp [heffective, hown, IsTextType]
  · have hunnamed (type : String) : form.document.valueOf? number "FT" ≠ some (.name type) :=
      fun hown => hnamed ⟨type, hown⟩
    exact iff_of_true (Or.inr hunnamed) fun type hown => absurd hown (hunnamed type)

/-- An indexed field is behind containers, and it is filled when the type that counts for it is that
of text fields or there is none, or else when no type name stands on the field itself. Otherwise the
call says that it is no text field, and the form stays. -/
theorem fill_iff_text_or_unnamed_type {document : Document}
    (hdistinct : document.HasDistinctNames) {opened form : Form}
    (h : ofDocument document = .ok opened) {calls : List Edit}
    (hform : opened.editedBy calls = form) {name : String} {number : Nat}
    (hfound : form.fields.find? name = some number) (value : String) :
    (∃ containers, form.IsReached containers name number) ∧
    ∀ containers, form.IsReached containers name number →
      ((∃ filled, form.setTextField name value = .ok filled) ↔
        IsTextType (form.effectiveType? containers number) ∨
          ∀ type, form.document.valueOf? number "FT" ≠ some (.name type)) ∧
      ∀ error, form.setTextField name value = .error error →
        error = .malformed ("field '" ++ name ++ "' is not a text field") ∧
          form.after (.fill name value) = form := by
  obtain ⟨hopen, -, -⟩ := isOpen_of_calls hdistinct h hform
  refine ⟨hopen.exists_containers hfound, fun containers _ => ⟨?_, ?_⟩⟩
  · rw [hopen.fills_iff hfound, isTextType_or_unnamed_iff]
  · intro error herror
    rcases hopen.of_setTextField_error herror with ⟨hnone, -⟩ | ⟨_, _, -, -, -, hmessage⟩
    · cases hfound.symm.trans hnone
    · exact ⟨hmessage, after_fill_of_error herror⟩

/-- A container of buttons with a field of no type of its own, a text field and a button. -/
def groupDocument : Document where
  objects := [
    (1, .dict [("AcroForm", .ref 2)]),
    (2, .dict [("Fields", .arr [.ref 3])]),
    (3, .dict [("FT", .name "Btn"), ("Kids", .arr [.ref 4, .ref 5, .ref 6]),
      ("T", .bytes .literal [103])]),
    (4, .dict [("T", .bytes .literal [97])]),
    (5, .dict [("FT", .name "Tx"), ("T", .bytes .literal [98])]),
    (6, .dict [("FT", .name "Btn"), ("T", .bytes .literal [99])])]
  trailer := [("Root", .ref 1)]

/-- In a container of buttons the text field is filled by its own type, and the button is not. -/
theorem fill_iff_text_or_unnamed_type_group :
    ∃ opened form filled, ofDocument groupDocument = .ok opened ∧
      opened.editedBy [.fill "g.a" "é", .flatten] = form ∧
      form.setTextField "g.b" "x" = .ok filled ∧
      form.setTextField "g.c" "x" =
        .error (.malformed "field 'g.c' is not a text field") ∧
      form.after (.fill "g.c" "x") = form := by
  have hdistinct : groupDocument.HasDistinctNames :=
    Document.hasDistinctNames_of_all (by decide)
  have hopen : ofDocument groupDocument =
      .ok ⟨groupDocument, [("g.a", 4), ("g.b", 5), ("g.c", 6)], .referenced 2⟩ := rfl
  obtain ⟨form, hcalls⟩ : ∃ form, Form.editedBy
      ⟨groupDocument, [("g.a", 4), ("g.b", 5), ("g.c", 6)], .referenced 2⟩
      [.fill "g.a" "é", .flatten] = form := ⟨_, rfl⟩
  have htext : form.fields.find? "g.b" = some 5 := hcalls ▸ rfl
  have hbutton : form.fields.find? "g.c" = some 6 := hcalls ▸ rfl
  obtain ⟨⟨above, habove⟩, hfills⟩ :=
    fill_iff_text_or_unnamed_type hdistinct hopen hcalls htext "x"
  obtain ⟨⟨above', habove'⟩, hrefuses⟩ :=
    fill_iff_text_or_unnamed_type hdistinct hopen hcalls hbutton "x"
  have hown : form.effectiveType? above 5 = some (.name "Tx") :=
    Document.inherited?_of_own (hcalls ▸ rfl) above
  obtain ⟨filled, hfilled⟩ := (hfills above habove).1.mpr (Or.inl (Or.inr hown))
  have herror : form.setTextField "g.c" "x" =
      .error (.malformed "field 'g.c' is not a text field") := hcalls ▸ rfl
  exact ⟨_, form, filled, hopen, hcalls, hfilled, herror,
    ((hrefuses above' habove').2 _ herror).2⟩

/-- A field without a type of its own is filled, though the nearest container above it is one of
buttons. -/
theorem button_in_group_filled :
    ∃ opened filled, ofDocument groupDocument = .ok opened ∧
      opened.fields.find? "g.a" = some 4 ∧ opened.IsReached [3] "g.a" 4 ∧
      opened.effectiveType? [3] 4 = some (.name "Btn") ∧
      opened.setTextField "g.a" "x" = .ok filled := by
  have hgroup : groupDocument.fieldNode? 3 = some ("g", [4, 5, 6]) := rfl
  have hfield : groupDocument.fieldNode? 4 = some ("a", []) := rfl
  have hreached : groupDocument.LeadsThrough Document.fieldLevels none [3] [3] "g.a" 4 :=
    .through (List.mem_singleton_self 3) hgroup (.atEnd List.mem_cons_self hfield)
  exact ⟨⟨groupDocument, [("g.a", 4), ("g.b", 5), ("g.c", 6)], .referenced 2⟩, _, rfl, rfl,
    hreached, rfl, rfl⟩

end Form

end Stepwise.Pdf
