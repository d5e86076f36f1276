import Stepwise.Proofs.Pdf.Fields

/-!
# Flattening a form

Filling and flattening change entries of dictionaries and neither the tree of fields nor the places
to which references lead. So an opened form can be flattened whatever was filled in before, and the
terminal fields stay the same ones. Flattening locks the dictionaries of the indexed fields and no
other ones. The index knows the last field of each name, so of several fields that share a name only
the last one is locked.
-/

namespace Stepwise.Pdf

namespace Form

open Document (Changed ChangesOnly)
open Ordered (find? set)

/-! ## Locking -/

/-- A field with the read-only flag set. -/
def lock (field : Dictionary) : Dictionary :=
  set field "Ff" (.int (locked (flags field)))

theorem locked_odd (flags : Int) : locked flags % 2 = 1 := by
  rw [locked]
  split
  · next h => exact eq_of_beq h
  · next h =>
    have hne : flags % 2 ≠ 1 := fun heq => h (beq_iff_eq.mpr heq)
    omega

theorem find?_lock (field : Dictionary) (key : String) :
    find? (lock field) key =
      if "Ff" = key then some (.int (locked (flags field))) else find? field key :=
  Ordered.find?_set field "Ff" key _

@[simp] theorem flags_lock (field : Dictionary) : flags (lock field) = locked (flags field) := by
  rw [flags, Dictionary.int?, find?_lock, if_pos rfl]
  rfl

theorem lock_lock (field : Dictionary) : lock (lock field) = lock field := by
  have htwice : locked (locked (flags field)) = locked (flags field) := by
    rw [locked, if_pos (beq_iff_eq.mpr (locked_odd (flags field)))]
  rw [lock, flags_lock, htwice, lock, Ordered.set_set]

theorem changesOnly_lock : ChangesOnly ["Ff"] fun _ field => lock field :=
  .set (fun field => .int (locked (flags field))) "Ff"

/-- The dictionaries behind some numbers are locked, each once and for all. -/
theorem lockAll_changed {document : Document} {numbers : List Nat}
    (h : ∀ number ∈ numbers, ∃ place, document.place? number = some place) :
    ∃ document', lockAll document numbers = .ok document' ∧
      Changed (fun place field =>
        if place ∈ numbers.filterMap document.place? then lock field else field)
        document document' := by
  induction numbers generalizing document with
  | nil => exact ⟨document, rfl, Changed.refl document⟩
  | cons number rest ih =>
      obtain ⟨hnumber, hrest⟩ := List.forall_mem_cons.mp h
      obtain ⟨place, hplace⟩ := hnumber
      obtain ⟨field, hat⟩ := Document.place?_eq_some_iff.mp hplace
      obtain ⟨document₁, hchange, hchanged⟩ :=
        Document.changeDictionary_of_dictionaryAt hat lock
      have hplaces : document₁.place? = document.place? := funext hchanged.place?
      have hrest' : ∀ number ∈ rest, ∃ place, document₁.place? number = some place := by
        rwa [hplaces]
      obtain ⟨document', hlocked, hchanged'⟩ := ih hrest'
      refine ⟨document', ?_, ?_⟩
      · have hstep : (document.changeDictionary number fun field =>
            field.set "Ff" (.int (locked (flags field)))) = .ok document₁ := hchange
        rw [lockAll, hstep]
        exact hlocked
      · have hboth := hchanged.trans hchanged'
        rw [hplaces] at hboth
        rw [List.filterMap_cons_some hplace]
        refine hboth.congr fun _ other field _ => ?_
        by_cases hother : other = place
        · subst hother
          simp [lock_lock]
        · simp [hother]

/-! ## Asking for appearances -/

/-- The dictionary that is the form or holds it, with new appearances asked for. -/
def asking : FormSlot → Dictionary → Dictionary
  | .referenced _, entries => set entries "NeedAppearances" (.bool true)
  | .inCatalog _, entries =>
      match find? entries "AcroForm" with
      | some (.dict form) =>
          set entries "AcroForm" (.dict (set form "NeedAppearances" (.bool true)))
      | _ => entries

theorem changesOnly_asking (slot : FormSlot) :
    ChangesOnly ["NeedAppearances", "AcroForm"] fun _ entries => asking slot entries := by
  cases slot with
  | referenced number =>
      exact (ChangesOnly.set (fun _ => .bool true) "NeedAppearances").mono (by simp)
  | inCatalog number =>
      constructor
      · intro place entries hn
        simp only [asking]
        split
        · exact Ordered.keys_nodup_set hn _ _
        · exact hn
      · intro place entries hn key hkey
        have hne : ¬"AcroForm" = key := fun heq => hkey (by simp [← heq])
        simp only [asking]
        split
        · rw [Ordered.find?_set, if_neg hne]
        · rfl

/-- The form keeps its fields. -/
theorem form?_asking (slot : FormSlot) (entries : Dictionary) :
    (slot.form? (asking slot entries)).map (find? · "Fields") =
      (slot.form? entries).map (find? · "Fields") := by
  cases slot with
  | referenced number => simp [FormSlot.form?, asking, Ordered.find?_set]
  | inCatalog number =>
      simp only [FormSlot.form?, asking]
      split
      · next form hform => simp [hform, Object.asDictionary?, Ordered.find?_set]
      · rfl

theorem askForAppearances_changed {document : Document} {slot : FormSlot} {form : Dictionary}
    (h : dictionary document slot = .ok form) :
    ∃ document', askForAppearances document slot = .ok document' ∧
      Changed (fun place entries =>
        if document.place? slot.number = some place then asking slot entries else entries)
        document document' := by
  obtain ⟨entries, hentries, hform⟩ := Option.bind_eq_some_iff.mp
    ((dictionary_eq_ok_iff document slot form).mp h)
  obtain ⟨place, hat⟩ := Document.exists_dictionaryAt hentries
  have hplace : document.place? slot.number = some place :=
    Document.place?_eq_some_iff.mpr ⟨entries, hat⟩
  cases slot with
  | referenced number =>
      obtain ⟨document', hchange, hchanged⟩ := Document.changeDictionary_of_dictionaryAt hat
        fun form => set form "NeedAppearances" (.bool true)
      refine ⟨document', hchange, hchanged.congr fun _ other _ _ => ?_⟩
      simp [hplace, asking, eq_comm]
  | inCatalog number =>
      obtain ⟨document', hchange, hchanged⟩ := Document.changeDictionary_of_dictionaryAt hat
        fun catalog => set catalog "AcroForm" (.dict (set form "NeedAppearances" (.bool true)))
      refine ⟨document', ?_, hchanged.congr fun _ other entries' hother => ?_⟩
      · rw [askForAppearances, h]
        exact hchange
      · by_cases hsame : other = place
        · subst hsame
          obtain ⟨object, hobject, hdict⟩ := Option.bind_eq_some_iff.mp hform
          obtain rfl : object = .dict form := by
            cases object <;> simp_all [Object.asDictionary?]
          simp [hplace, asking, ← Document.dictionaryAt_unique hat hother, hobject]
        · simp [hplace, hsame, Ne.symm hsame]

/-! ## Filling -/

theorem changesOnly_filled (value : String) : ChangesOnly ["V", "AP"] fun _ => filled value := by
  have hset : ChangesOnly ["V", "AP"] fun _ field => set field "V" (encodeText value) :=
    (ChangesOnly.set (fun _ => encodeText value) "V").mono (by simp)
  exact hset.trans ((ChangesOnly.remove "AP").mono (by simp))

/-- A form with the same index and slot whose document differs in entries of some names only. -/
structure DiffersOnly (names : List String) (form form' : Form) : Prop where
  fields : form'.fields = form.fields
  slot : form'.slot = form.slot
  document : ∃ change, ChangesOnly names change ∧ Changed change form.document form'.document

namespace DiffersOnly

variable {names : List String} {form form' form'' : Form}

theorem refl (names : List String) (form : Form) : DiffersOnly names form form :=
  ⟨rfl, rfl, _, ChangesOnly.refl names, Changed.refl form.document⟩

theorem trans (h : DiffersOnly names form form') (h' : DiffersOnly names form' form'') :
    DiffersOnly names form form'' := by
  obtain ⟨hfields, hslot, change, honly, hchanged⟩ := h
  obtain ⟨hfields', hslot', change', honly', hchanged'⟩ := h'
  exact ⟨hfields'.trans hfields, hslot'.trans hslot, _, honly.trans honly',
    hchanged.trans hchanged'⟩

end DiffersOnly

/-- Filling a field writes its value and takes out its appearance. -/
theorem setTextField_differsOnly {form form' : Form} {name value : String}
    (h : form.setTextField name value = .ok form') : DiffersOnly ["V", "AP"] form form' := by
  rw [setTextField] at h
  cases hfound : form.fields.find? name with
  | none =>
      rw [hfound] at h
      cases h
  | some number =>
      simp only [hfound] at h
      cases hat : form.document.dictionaryAt number with
      | error e =>
          rw [hat] at h
          cases h
      | ok found =>
          obtain ⟨place, field⟩ := found
          obtain ⟨document', hchange, hchanged⟩ :=
            Document.changeDictionary_of_dictionaryAt hat (filled value)
          simp only [hat, hchange] at h
          split at h
          · cases h
            exact ⟨rfl, rfl, _, (changesOnly_filled value).ite (· = place), hchanged⟩
          · cases h

/-- The form after some calls that fill fields; a call that fails leaves it as it is. -/
def filledBy (form : Form) : List (String × String) → Form
  | [] => form
  | (name, value) :: rest =>
      match form.setTextField name value with
      | .ok form => form.filledBy rest
      | .error _ => form.filledBy rest

theorem filledBy_differsOnly (form : Form) (calls : List (String × String)) :
    DiffersOnly ["V", "AP"] form (form.filledBy calls) := by
  induction calls generalizing form with
  | nil => exact .refl _ form
  | cons call rest ih =>
      obtain ⟨name, value⟩ := call
      rw [filledBy]
      cases hset : form.setTextField name value with
      | error e => exact ih form
      | ok form' => exact (setTextField_differsOnly hset).trans (ih form')

/-! ## What an opened form keeps -/

/-- A form whose dictionaries have distinct names, whose own dictionary is there, and whose index
leads to dictionaries. -/
structure IsSound (form : Form) : Prop where
  distinct : form.document.HasDistinctNames
  dictionary : ∃ entries, dictionary form.document form.slot = .ok entries
  fields : ∀ number ∈ form.fields.values, ∃ place, form.document.place? number = some place

theorem isSound_of_ofDocument {document : Document} {form : Form}
    (hdistinct : document.HasDistinctNames) (h : ofDocument document = .ok form) :
    form.IsSound := by
  obtain ⟨rfl, hdictionary, hfields⟩ := of_ofDocument h
  refine ⟨hdistinct, hdictionary, fun number hnumber => ?_⟩
  obtain ⟨slot, hslot, rfl⟩ := List.mem_map.mp hnumber
  rw [hfields] at hslot
  obtain ⟨field, hfield⟩ := (mem_terminals.mp (Ordered.mem_of_mem_ofPairs hslot)).exists_dictionary?
  obtain ⟨place, hat⟩ := Document.exists_dictionaryAt hfield
  exact ⟨place, Document.place?_eq_some_iff.mpr ⟨field, hat⟩⟩

/-- The entry that holds the form is not changed. -/
theorem form?_changesOnly {names : List String} {change : Nat → Dictionary → Dictionary}
    (honly : ChangesOnly names change) (hform : "AcroForm" ∉ names) (hfields : "Fields" ∉ names)
    (slot : FormSlot) (place : Nat) {entries : Dictionary} (hn : (Ordered.keys entries).Nodup) :
    (slot.form? (change place entries)).map (find? · "Fields") =
      (slot.form? entries).map (find? · "Fields") := by
  cases slot with
  | referenced number =>
      simp only [FormSlot.form?, Option.map_some, honly.find?_eq place entries hn _ hfields]
  | inCatalog number => simp only [FormSlot.form?, honly.find?_eq place entries hn _ hform]

/-- A form stays sound when its own dictionary and the places of its fields are kept. -/
theorem IsSound.changed {names : List String} {change : Nat → Dictionary → Dictionary}
    {form form' : Form} (h : form.IsSound) (hfields : form'.fields = form.fields)
    (hslot : form'.slot = form.slot) (hchanged : Changed change form.document form'.document)
    (honly : ChangesOnly names change)
    (hroots : ∀ place entries, (Ordered.keys entries).Nodup →
      (form.slot.form? (change place entries)).map (find? · "Fields") =
        (form.slot.form? entries).map (find? · "Fields")) : form'.IsSound := by
  refine ⟨h.distinct.changed hchanged honly, ?_, fun number hnumber => ?_⟩
  · obtain ⟨entries, hentries⟩ := h.dictionary
    obtain ⟨holder, hholder, hentries⟩ := Option.bind_eq_some_iff.mp
      ((dictionary_eq_ok_iff _ _ _).mp hentries)
    obtain ⟨place, hat⟩ := Document.exists_dictionaryAt hholder
    have hkept := hroots place holder (h.distinct _ _ hholder)
    rw [hentries] at hkept
    obtain ⟨entries', hentries', -⟩ := Option.map_eq_some_iff.mp hkept
    refine ⟨entries', (dictionary_eq_ok_iff _ _ _).mpr ?_⟩
    rw [hslot, Document.dictionary?_of_dictionaryAt (hchanged.dictionaryAt hat)]
    exact hentries'
  · rw [hchanged.place?]
    rw [hfields] at hnumber
    exact h.fields number hnumber

theorem IsSound.differsOnly {names : List String} {form form' : Form} (h : form.IsSound)
    (hdiffers : DiffersOnly names form form') (hform : "AcroForm" ∉ names)
    (hfields : "Fields" ∉ names) : form'.IsSound := by
  obtain ⟨change, honly, hchanged⟩ := hdiffers.document
  refine h.changed hdiffers.fields hdiffers.slot hchanged honly fun place entries hn => ?_
  exact form?_changesOnly honly hform hfields form.slot place hn

/-- The references of a form stay when its own dictionary keeps its fields. -/
theorem roots_changed {change : Nat → Dictionary → Dictionary} {form form' : Form}
    (hdistinct : form.document.HasDistinctNames) (hslot : form'.slot = form.slot)
    (hchanged : Changed change form.document form'.document)
    (hroots : ∀ place entries, (Ordered.keys entries).Nodup →
      (form.slot.form? (change place entries)).map (find? · "Fields") =
        (form.slot.form? entries).map (find? · "Fields")) :
    form'.roots = form.roots := by
  rw [roots, roots, hslot]
  rcases hchanged.exists_dictionary? form.slot.number with
    ⟨hnone, hnone'⟩ | ⟨place, entries, -, hsome, hsome'⟩
  · rw [hnone, hnone']
  · have hkept := hroots place entries (hdistinct _ _ hsome)
    rw [hsome, hsome', Option.bind_some, Option.bind_some]
    cases hbefore : form.slot.form? entries <;>
      cases hafter : form.slot.form? (change place entries) <;>
      simp_all [Dictionary.references, Dictionary.array?]

/-- The terminal fields stay when names, kids and the fields of the form do. -/
theorem terminals_changed {names : List String} {change : Nat → Dictionary → Dictionary}
    {form form' : Form} (hdistinct : form.document.HasDistinctNames)
    (hslot : form'.slot = form.slot) (hchanged : Changed change form.document form'.document)
    (honly : ChangesOnly names change) (hname : "T" ∉ names) (hkids : "Kids" ∉ names)
    (hroots : ∀ place entries, (Ordered.keys entries).Nodup →
      (form.slot.form? (change place entries)).map (find? · "Fields") =
        (form.slot.form? entries).map (find? · "Fields")) :
    form'.terminals = form.terminals := by
  rw [terminals, terminals, roots_changed hdistinct hslot hchanged hroots]
  exact Document.terminals_congr (Document.fieldNode?_changed hdistinct hchanged honly hname hkids)
    _ _ _

theorem DiffersOnly.terminals_eq {names : List String} {form form' : Form}
    (hdiffers : DiffersOnly names form form') (hdistinct : form.document.HasDistinctNames)
    (hnames : ∀ key ∈ ["T", "Kids", "AcroForm", "Fields"], key ∉ names) :
    form'.terminals = form.terminals := by
  obtain ⟨change, honly, hchanged⟩ := hdiffers.document
  refine terminals_changed hdistinct hdiffers.slot hchanged honly (hnames "T" (by simp))
    (hnames "Kids" (by simp)) fun place entries hn => ?_
  exact form?_changesOnly honly (hnames "AcroForm" (by simp)) (hnames "Fields" (by simp)) _ place hn

/-! ## The flattened form -/

/-- What flattening does to the dictionary at a place. -/
def flattening (form : Form) (place : Nat) (entries : Dictionary) : Dictionary :=
  let field :=
    if place ∈ form.fields.values.filterMap form.document.place? then lock entries else entries
  if form.document.place? form.slot.number = some place then asking form.slot field else field

theorem changesOnly_flattening (form : Form) :
    ChangesOnly ["Ff", "NeedAppearances", "AcroForm"] form.flattening := by
  have hlock : ChangesOnly ["Ff", "NeedAppearances", "AcroForm"] fun place field =>
      if place ∈ form.fields.values.filterMap form.document.place? then lock field else field :=
    (changesOnly_lock.ite _).mono (by simp)
  have hask : ChangesOnly ["Ff", "NeedAppearances", "AcroForm"] fun place field =>
      if form.document.place? form.slot.number = some place then asking form.slot field
      else field :=
    ((changesOnly_asking form.slot).ite _).mono (by simp)
  exact hlock.trans hask

/-- An opened form can be flattened. -/
theorem exists_flatten {form : Form} (h : form.IsSound) :
    ∃ flat, form.flatten = .ok flat ∧ flat.slot = form.slot ∧
      Changed form.flattening form.document flat.document := by
  obtain ⟨document₁, hlocked, hchanged⟩ := lockAll_changed h.fields
  have hdiffers : DiffersOnly ["Ff"] form { form with document := document₁ } :=
    ⟨rfl, rfl, _, changesOnly_lock.ite _, hchanged⟩
  obtain ⟨entries, hentries⟩ := (h.differsOnly hdiffers (by simp) (by simp)).dictionary
  obtain ⟨document', hasked, hchanged'⟩ := askForAppearances_changed hentries
  refine ⟨{ form with document := document' }, ?_, rfl, ?_⟩
  · simp only [flatten, hlocked, hasked]
  · refine (hchanged.trans hchanged').congr fun _ place field _ => ?_
    simp only [flattening, hchanged.place?]

theorem fields_flatten {form flat : Form} (h : form.flatten = .ok flat) :
    flat.fields = form.fields := by
  rw [flatten] at h
  split at h
  · cases h
  · split at h
    · cases h
    · cases h
      rfl

theorem form?_flattening (form : Form) (place : Nat) {entries : Dictionary}
    (hn : (Ordered.keys entries).Nodup) :
    (form.slot.form? (form.flattening place entries)).map (find? · "Fields") =
      (form.slot.form? entries).map (find? · "Fields") := by
  have hlocked := form?_changesOnly
    (changesOnly_lock.ite (· ∈ form.fields.values.filterMap form.document.place?))
    (by simp) (by simp) form.slot place hn
  rw [← hlocked, flattening]
  split
  · exact form?_asking _ _
  · rfl

theorem IsSound.flattened {form flat : Form} (h : form.IsSound)
    (hflatten : form.flatten = .ok flat) (hslot : flat.slot = form.slot)
    (hchanged : Changed form.flattening form.document flat.document) : flat.IsSound :=
  h.changed (fields_flatten hflatten) hslot hchanged form.changesOnly_flattening fun place _ hn =>
    form.form?_flattening place hn

theorem terminals_flattened {form flat : Form} (h : form.IsSound) (hslot : flat.slot = form.slot)
    (hchanged : Changed form.flattening form.document flat.document) :
    flat.terminals = form.terminals :=
  terminals_changed h.distinct hslot hchanged form.changesOnly_flattening (by simp) (by simp)
    fun place _ hn => form.form?_flattening place hn

/-! ## Which fields are locked -/

/-- The field behind a number has the read-only flag set in its own `Ff`. -/
def IsLocked (form : Form) (number : Nat) : Prop :=
  ∃ flags, (form.document.dictionary? number).bind (find? · "Ff") = some (.int flags) ∧
    flags % 2 = 1

/-- Two numbers lead to one dictionary. -/
def SharesPlace (form : Form) (number other : Nat) : Prop :=
  ∃ place, form.document.place? number = some place ∧ form.document.place? other = some place

/-- A terminal field after which no other one has its name. -/
def IsLastOfName (form : Form) (number : Nat) : Prop :=
  ∃ name before after, form.terminals = before ++ (name, number) :: after ∧
    name ∉ Ordered.keys after

/-- The index knows the last field of each name. -/
theorem mem_values_iff {form : Form} (h : form.fields = Ordered.ofPairs form.terminals)
    (number : Nat) : number ∈ form.fields.values ↔ form.IsLastOfName number := by
  constructor
  · intro hmem
    obtain ⟨⟨name, _⟩, hslot, rfl⟩ := List.mem_map.mp hmem
    rw [h] at hslot
    have hfound := Ordered.find?_of_mem (Ordered.keys_nodup_ofPairs form.terminals) hslot
    obtain ⟨before, after, hsplit, hafter⟩ := Ordered.exists_last_of_find?_ofPairs hfound
    exact ⟨name, before, after, hsplit, hafter⟩
  · rintro ⟨name, before, after, hsplit, hafter⟩
    have hfound := Ordered.find?_setAll_of_last [] before name number hafter
    rw [← hsplit, ← Ordered.ofPairs, ← h] at hfound
    exact List.mem_map.mpr ⟨_, Ordered.mem_of_find? hfound, rfl⟩

/-- A field whose name no other terminal field has is the last one of its name. -/
theorem isLastOfName_of_unique {form : Form} {name : String} {number : Nat}
    (h : form.IsTerminal name number)
    (hunique : ∀ other, form.IsTerminal name other → other = number) :
    form.IsLastOfName number := by
  have hkey : name ∈ Ordered.keys form.terminals :=
    List.mem_map.mpr ⟨_, mem_terminals.mpr h, rfl⟩
  obtain ⟨last, before, after, hsplit, hafter⟩ := Ordered.exists_last_of_mem_keys hkey
  have hlast : form.IsTerminal name last := mem_terminals.mp (by simp [hsplit])
  obtain rfl := hunique last hlast
  exact ⟨name, before, after, hsplit, hafter⟩

theorem DiffersOnly.isLocked_iff {names : List String} {form form' : Form}
    (hdiffers : DiffersOnly names form form') (hdistinct : form.document.HasDistinctNames)
    (hflags : "Ff" ∉ names) (number : Nat) : form'.IsLocked number ↔ form.IsLocked number := by
  obtain ⟨change, honly, hchanged⟩ := hdiffers.document
  rw [IsLocked, IsLocked,
    Document.dictionary?_find?_changed hdistinct hchanged honly hflags number]

theorem find?_flattening {form : Form} {place : Nat} {entries : Dictionary}
    (hn : (Ordered.keys entries).Nodup) :
    find? (form.flattening place entries) "Ff" =
      if place ∈ form.fields.values.filterMap form.document.place?
        then some (.int (locked (flags entries))) else find? entries "Ff" := by
  have hask := ((changesOnly_asking form.slot).ite
    (form.document.place? form.slot.number = some ·)).find?_eq place
  by_cases hplace : place ∈ form.fields.values.filterMap form.document.place?
  · have hkept := hask (lock entries) (changesOnly_lock.nodup place entries hn) "Ff" (by simp)
    simpa [flattening, hplace, find?_lock] using hkept
  · have hkept := hask entries hn "Ff" (by simp)
    simpa [flattening, hplace] using hkept

/-- Flattening locks what an indexed field stands at, and nothing else. -/
theorem isLocked_flattened {form form' : Form} (hdistinct : form.document.HasDistinctNames)
    (hchanged : Changed form.flattening form.document form'.document) (number : Nat) :
    form'.IsLocked number ↔
      form.IsLocked number ∨ ∃ other ∈ form.fields.values, form.SharesPlace other number := by
  rw [IsLocked, IsLocked]
  cases hat : form.document.dictionaryAt number with
  | error e =>
      have hnone : form.document.dictionary? number = none := by rw [Document.dictionary?, hat]
      have hnone' : form'.document.dictionary? number = none := by
        rw [Document.dictionary?, hchanged.2, hat]
        rfl
      have hplace : form.document.place? number = none := by rw [Document.place?, hat]
      simp [hnone, hnone', SharesPlace, hplace]
  | ok found =>
      obtain ⟨place, entries⟩ := found
      have hplace : form.document.place? number = some place :=
        Document.place?_eq_some_iff.mpr ⟨entries, hat⟩
      have hentries := Document.dictionary?_of_dictionaryAt hat
      have hshared : (∃ other ∈ form.fields.values, form.SharesPlace other number) ↔
          place ∈ form.fields.values.filterMap form.document.place? := by
        simp [SharesPlace, hplace, List.mem_filterMap]
      rw [hshared, Document.dictionary?_of_dictionaryAt (hchanged.dictionaryAt hat), hentries,
        Option.bind_some, Option.bind_some, find?_flattening (hdistinct number entries hentries)]
      by_cases hindexed : place ∈ form.fields.values.filterMap form.document.place?
      · simp [hindexed, locked_odd]
      · simp [hindexed]

/-- Whatever was filled in, an opened form can be flattened, and it has the same terminal fields
before and after. The fields that are locked afterwards are those that were, the last terminal field
of each name, and any other that shares its dictionary. So a terminal field whose name no other one
has is locked; of several with one name the last one is. -/
theorem flatten_locks_last_of_name {document : Document} (hdistinct : document.HasDistinctNames)
    {form : Form} (h : ofDocument document = .ok form) (calls : List (String × String)) :
    ∃ flat, (form.filledBy calls).flatten = .ok flat ∧ flat.terminals = form.terminals ∧
      (∀ number, flat.IsLocked number ↔ form.IsLocked number ∨
        ∃ last, form.IsLastOfName last ∧ form.SharesPlace last number) ∧
      (∀ number, flat.IsLastOfName number → flat.IsLocked number) ∧
      ∀ name number, flat.IsTerminal name number →
        (∀ other, flat.IsTerminal name other → other = number) → flat.IsLocked number := by
  obtain ⟨rfl, -, hindex⟩ := of_ofDocument h
  have hsound := isSound_of_ofDocument hdistinct h
  have hfilled := form.filledBy_differsOnly calls
  have hsound' := hsound.differsOnly hfilled (by simp) (by simp)
  obtain ⟨flat, hflatten, hslot, hchanged⟩ := exists_flatten hsound'
  have hterminals : flat.terminals = form.terminals :=
    (terminals_flattened hsound' hslot hchanged).trans (hfilled.terminals_eq hdistinct (by simp))
  have hlocked (number : Nat) : flat.IsLocked number ↔ form.IsLocked number ∨
      ∃ last, form.IsLastOfName last ∧ form.SharesPlace last number := by
    obtain ⟨change, -, hchanged'⟩ := hfilled.document
    rw [isLocked_flattened hsound'.distinct hchanged, hfilled.isLocked_iff hdistinct (by simp),
      hfilled.fields]
    simp only [mem_values_iff hindex, SharesPlace, hchanged'.place?]
  have hlast (number : Nat) (hnumber : flat.IsLastOfName number) : flat.IsLocked number := by
    rw [IsLastOfName, hterminals] at hnumber
    obtain ⟨place, hplace⟩ := hsound.fields number ((mem_values_iff hindex number).mpr hnumber)
    exact (hlocked number).mpr (Or.inr ⟨number, hnumber, place, hplace, hplace⟩)
  refine ⟨flat, hflatten, hterminals, hlocked, hlast, fun name number hterminal hunique => ?_⟩
  exact hlast number (isLastOfName_of_unique hterminal hunique)

/-- A field of its own name `a.b` beside a field `b` in a container `a`, and a field `c` behind a
second reference. -/
def dottedDocument : Document where
  objects := [
    (1, .dict [("AcroForm", .ref 2)]),
    (2, .dict [("Fields", .arr [.ref 3, .ref 5, .ref 6])]),
    (3, .dict [("T", .bytes .literal [97]), ("Kids", .arr [.ref 4])]),
    (4, .dict [("T", .bytes .literal [98]), ("FT", .name "Tx"), ("Ff", .int 4096)]),
    (5, .dict [("T", .bytes .literal [97, 46, 98]), ("AP", .dict [])]),
    (6, .ref 7),
    (7, .dict [("T", .bytes .literal [99])])]
  trailer := [("Root", .ref 1)]

/-- After a filling and a call that fails, the last field of each name is locked. -/
theorem flatten_locks_dotted :
    ∃ form flat, ofDocument dottedDocument = .ok form ∧
      (form.filledBy [("a.b", "é"), ("b", "")]).flatten = .ok flat ∧
      flat.terminals = [("a.b", 4), ("a.b", 5), ("c", 6)] ∧ flat.IsLocked 5 ∧ flat.IsLocked 6 := by
  have hdistinct : dottedDocument.HasDistinctNames := by
    refine Document.hasDistinctNames_of_objects fun slot hslot entries hentries => ?_
    simp only [dottedDocument, List.mem_cons, List.not_mem_nil, or_false] at hslot
    rcases hslot with rfl | rfl | rfl | rfl | rfl | rfl | rfl <;> cases hentries <;> decide
  have hopen : ofDocument dottedDocument =
      .ok ⟨dottedDocument, [("a.b", 5), ("c", 6)], .referenced 2⟩ := rfl
  obtain ⟨flat, hflatten, hterminals, -, hlast, -⟩ :=
    flatten_locks_last_of_name hdistinct hopen [("a.b", "é"), ("b", "")]
  have hwalk : (⟨dottedDocument, [("a.b", 5), ("c", 6)], .referenced 2⟩ : Form).terminals =
      [("a.b", 4), ("a.b", 5), ("c", 6)] := rfl
  rw [hwalk] at hterminals
  refine ⟨_, flat, hopen, hflatten, hterminals, hlast 5 ?_, hlast 6 ?_⟩
  · exact ⟨"a.b", [("a.b", 4)], [("c", 6)], hterminals, by decide⟩
  · exact ⟨"c", [("a.b", 4), ("a.b", 5)], [], hterminals, by decide⟩

/-- Two fields of one name. -/
def twinDocument : Document where
  objects := [
    (1, .dict [("AcroForm", .ref 2)]),
    (2, .dict [("Fields", .arr [.ref 3, .ref 4])]),
    (3, .dict [("FT", .name "Tx"), ("T", .bytes .literal [97])]),
    (4, .dict [("FT", .name "Tx"), ("T", .bytes .literal [97])])]
  trailer := [("Root", .ref 1)]

/-- The first of the two fields is a terminal field and is not locked. -/
theorem first_twin_not_locked :
    ∃ form flat, ofDocument twinDocument = .ok form ∧ form.flatten = .ok flat ∧
      flat.IsTerminal "a" 3 ∧ ¬flat.IsLocked 3 := by
  refine ⟨_, _, rfl, rfl, ?_, ?_⟩
  · exact mem_terminals.mp (by decide)
  · rintro ⟨flags, hflags, -⟩
    cases hflags

end Form

end Stepwise.Pdf
