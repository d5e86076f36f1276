import Stepwise.Pdf.Form
import Stepwise.Proofs.Pdf.Document

/-!
# The tree of fields

A terminal field is at the end of a chain of references: each leads to a dictionary with a name of
its own, the next is one of its named kids, and the last one has none. The index holds the terminal
fields in the order of a walk through the tree, under the names along their chains. A field of a
repeated name takes the place of the one before it, so the index knows the last field of each name
and no other one.
-/

namespace Stepwise.Pdf

namespace Document

variable {document document' : Document}

/-- The own name and the named kids of the field behind a reference. -/
def fieldNode? (document : Document) (number : Nat) : Option (String × List Nat) :=
  (document.dictionary? number).bind fun field =>
    (ownName? field).map fun own => (own, document.namedKids field)

/-- A field without named kids is at the end of a chain of references, under this name. -/
inductive LeadsTo (document : Document) : Nat → Option String → List Nat → String → Nat → Prop
  | atEnd {levels : Nat} {above : Option String} {references : List Nat} {number : Nat}
      {own : String} (here : number ∈ references)
      (node : document.fieldNode? number = some (own, [])) :
      LeadsTo document (levels + 1) above references (qualified above own) number
  | through {levels : Nat} {above : Option String} {references kids : List Nat} {number last : Nat}
      {own name : String} (here : number ∈ references)
      (node : document.fieldNode? number = some (own, kids))
      (rest : LeadsTo document levels (some (qualified above own)) kids name last) :
      LeadsTo document (levels + 1) above references name last

/-- The terminal fields under some references with their names, in the order of the walk. -/
def terminals (document : Document) : Nat → Option String → List Nat → List (String × Nat)
  | 0, _, _ => []
  | levels + 1, above, references =>
      references.flatMap fun number =>
        match document.fieldNode? number with
        | none => []
        | some (own, []) => [(qualified above own, number)]
        | some (own, kids) => document.terminals levels (some (qualified above own)) kids

theorem mem_terminals_iff {levels : Nat} {above : Option String} {references : List Nat}
    {name : String} {number : Nat} :
    (name, number) ∈ document.terminals levels above references ↔
      document.LeadsTo levels above references name number := by
  constructor
  · intro hmem
    induction levels generalizing above references with
    | zero => cases hmem
    | succ levels ih =>
        obtain ⟨first, hfirst, hmem⟩ := List.mem_flatMap.mp hmem
        split at hmem
        · cases hmem
        · next own hnode =>
          cases List.mem_singleton.mp hmem
          exact .atEnd hfirst hnode
        · next own kids _ hnode => exact .through hfirst hnode (ih hmem)
  · intro hleads
    induction hleads with
    | atEnd here node => exact List.mem_flatMap.mpr ⟨_, here, by simp [node]⟩
    | @through levels above references kids number last own name here node rest ih =>
        refine List.mem_flatMap.mpr ⟨_, here, ?_⟩
        cases kids with
        | nil =>
            -- under no references there is nothing
            cases levels <;> simp [terminals] at ih
        | cons kid kids => simpa [node] using ih

theorem LeadsTo.exists_dictionary? {levels : Nat} {above : Option String} {references : List Nat}
    {name : String} {number : Nat} (h : document.LeadsTo levels above references name number) :
    ∃ field, document.dictionary? number = some field := by
  induction h with
  | atEnd here node =>
      obtain ⟨field, hfield, -⟩ := Option.bind_eq_some_iff.mp node
      exact ⟨field, hfield⟩
  | through here node rest ih => exact ih

/-- The index is filled with the terminal fields in their order. -/
theorem collect_eq_setAll (levels : Nat) (above : Option String) (references : List Nat)
    (index : Ordered Nat) :
    document.collect levels above references index =
      Ordered.setAll index (document.terminals levels above references) := by
  induction levels generalizing above references index with
  | zero => rfl
  | succ levels ih =>
      rw [collect, terminals]
      induction references generalizing index with
      | nil => rfl
      | cons number rest ihRest =>
          rw [List.foldl_cons, List.flatMap_cons, Ordered.setAll_append, ← ihRest]
          congr 1
          rw [fieldNode?]
          cases document.dictionary? number with
          | none => rfl
          | some field =>
              simp only [Option.bind_some]
              cases ownName? field with
              | none => rfl
              | some own =>
                  simp only [Option.map_some]
                  cases document.namedKids field with
                  | nil => rfl
                  | cons kid kids => exact ih _ _ _

/-- The walk depends on nothing but the names and the named kids of fields. -/
theorem terminals_congr (h : ∀ number, document'.fieldNode? number = document.fieldNode? number)
    (levels : Nat) (above : Option String) (references : List Nat) :
    document'.terminals levels above references = document.terminals levels above references := by
  induction levels generalizing above references with
  | zero => rfl
  | succ levels ih =>
      simp only [terminals, h, ih]

section Changed

variable {names : List String} {change : Nat → Dictionary → Dictionary}
  (hdistinct : document.HasDistinctNames) (h : Changed change document document')
  (honly : ChangesOnly names change)
include hdistinct h honly

/-- A field keeps the entries that are not changed. -/
theorem dictionary?_find?_changed {key : String} (hkey : key ∉ names) (number : Nat) :
    (document'.dictionary? number).bind (Ordered.find? · key) =
      (document.dictionary? number).bind (Ordered.find? · key) := by
  rcases h.exists_dictionary? number with ⟨hnone, hnone'⟩ | ⟨place, entries, -, hsome, hsome'⟩
  · rw [hnone, hnone']
  · rw [hsome, hsome', Option.bind_some, Option.bind_some,
      honly.find?_eq place entries (hdistinct number entries hsome) key hkey]

theorem namedKids_changed (hname : "T" ∉ names) (field : Dictionary) :
    document'.namedKids field = document.namedKids field := by
  rw [namedKids, namedKids]
  refine List.filter_congr fun kid _ => ?_
  have hkid := dictionary?_find?_changed hdistinct h honly hname kid
  cases hnone : document.dictionary? kid <;> cases hnone' : document'.dictionary? kid <;>
    simp_all [Ordered.has]

/-- A change of other entries leaves names and kids as they are. -/
theorem fieldNode?_changed (hname : "T" ∉ names) (hkids : "Kids" ∉ names) (number : Nat) :
    document'.fieldNode? number = document.fieldNode? number := by
  rcases h.exists_dictionary? number with ⟨hnone, hnone'⟩ | ⟨place, entries, -, hsome, hsome'⟩
  · rw [fieldNode?, fieldNode?, hnone, hnone']
    rfl
  · have hfind (key : String) (hkey : key ∉ names) :=
      honly.find?_eq place entries (hdistinct number entries hsome) key hkey
    have hown : ownName? (change place entries) = ownName? entries := by
      rw [ownName?, ownName?, Dictionary.bytes?, Dictionary.bytes?, hfind "T" hname]
    have hnamed : document.namedKids (change place entries) = document.namedKids entries := by
      simp only [namedKids, Dictionary.references, Dictionary.array?, hfind "Kids" hkids]
    simp only [fieldNode?, hsome, hsome', Option.bind_some, hown, hnamed,
      namedKids_changed hdistinct h honly hname]

end Changed

end Document

/-! ## The tree of a form -/

/-- The number whose dictionary holds the form or is the form. -/
def FormSlot.number : FormSlot → Nat
  | .referenced number => number
  | .inCatalog catalog => catalog

/-- The dictionary of the form in the dictionary that it is or that holds it. -/
def FormSlot.form? : FormSlot → Dictionary → Option Dictionary
  | .referenced _, entries => some entries
  | .inCatalog _, entries => (Ordered.find? entries "AcroForm").bind Object.asDictionary?

namespace Form

theorem dictionary_eq_ok_iff (document : Document) (slot : FormSlot) (entries : Dictionary) :
    dictionary document slot = .ok entries ↔
      (document.dictionary? slot.number).bind slot.form? = some entries := by
  have hnumber : document.dictionary? slot.number =
      (document.dictionaryAt slot.number).toOption.map Prod.snd := by
    rw [Document.dictionary?]
    cases document.dictionaryAt slot.number <;> rfl
  rw [hnumber]
  cases slot with
  | referenced number =>
      rw [dictionary, FormSlot.number]
      cases document.dictionaryAt number with
      | error e => simp [Except.toOption]
      | ok found => simp [Except.toOption, FormSlot.form?]
  | inCatalog number =>
      rw [dictionary, FormSlot.number]
      cases document.dictionaryAt number with
      | error e => simp [Except.toOption]
      | ok found =>
          simp only [Except.toOption, Option.map_some, Option.bind_some, FormSlot.form?]
          cases Ordered.find? found.2 "AcroForm" with
          | none => simp
          | some form =>
              simp only [Option.bind_some]
              cases form.asDictionary? <;> simp

variable {document : Document} {form : Form}

/-- The references in the `Fields` of a form. -/
def roots (form : Form) : List Nat :=
  match (form.document.dictionary? form.slot.number).bind form.slot.form? with
  | some entries => Dictionary.references entries "Fields"
  | none => []

/-- The terminal fields of a form with their names, in the order of the walk. -/
def terminals (form : Form) : List (String × Nat) :=
  form.document.terminals Document.fieldLevels none form.roots

/-- A terminal field that is reached from the `Fields` of a form through named kids. -/
def IsTerminal (form : Form) (name : String) (number : Nat) : Prop :=
  form.document.LeadsTo Document.fieldLevels none form.roots name number

theorem mem_terminals {name : String} {number : Nat} :
    (name, number) ∈ form.terminals ↔ form.IsTerminal name number :=
  Document.mem_terminals_iff

/-- An opened form has a dictionary, and its index is filled with its terminal fields. -/
theorem of_ofDocument (h : ofDocument document = .ok form) :
    form.document = document ∧
    (∃ entries, dictionary document form.slot = .ok entries) ∧
    form.fields = Ordered.ofPairs form.terminals := by
  rw [ofDocument] at h
  cases hcatalog : catalog document with
  | error e =>
      rw [hcatalog] at h
      cases h
  | ok found =>
      simp only [hcatalog] at h
      cases hslot : slotOf? found.1 found.2 with
      | none =>
          rw [hslot] at h
          cases h
      | some slot =>
          simp only [hslot] at h
          cases hentries : dictionary document slot with
          | error e =>
              rw [hentries] at h
              cases h
          | ok entries =>
              simp only [hentries] at h
              split at h
              · cases h
              · cases h
                refine ⟨rfl, ⟨entries, hentries⟩, ?_⟩
                have hroots := (dictionary_eq_ok_iff document slot entries).mp hentries
                simp only [terminals, roots, hroots, Ordered.ofPairs]
                exact Document.collect_eq_setAll _ _ _ _

end Form

end Stepwise.Pdf
