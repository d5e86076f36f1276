import Mathlib.Data.List.Basic
import Stepwise.Proofs.Pdf.FieldTypes
import Stepwise.Proofs.Pdf.Flattened

/-!
# Flags of fields

The flags of a field may stand on a container above it, like its type. Flattening writes flags into
the dictionary of each indexed field, and those hide what the containers say. So a field with flags
of its own keeps them all but the first one, and a field without any is left with the first one
alone: what it had from its containers is lost, although the containers themselves stay as they are.
-/

namespace Stepwise.Pdf

open Document (Changed)
open Ordered (find?)

namespace Document

variable {document document' : Document} {levels : Nat} {above : Option String}
  {references containers : List Nat} {name : String} {number : Nat}

theorem LeadsThrough.references_ne_nil
    (h : document.LeadsThrough levels above references containers name number) :
    references ≠ [] := by
  cases h with
  | atEnd here node => exact List.ne_nil_of_mem here
  | through here node rest => exact List.ne_nil_of_mem here

/-- At the end of a way through the tree there are no named kids. -/
theorem LeadsThrough.fieldNode?_last
    (h : document.LeadsThrough levels above references containers name number) :
    ∃ own, document.fieldNode? number = some (own, []) := by
  induction h with
  | atEnd here node => exact ⟨_, node⟩
  | through here node rest ih => exact ih

/-- A container has named kids. -/
theorem LeadsThrough.fieldNode?_container
    (h : document.LeadsThrough levels above references containers name number) :
    ∀ container ∈ containers, ∃ own kids,
      document.fieldNode? container = some (own, kids) ∧ kids ≠ [] := by
  induction h with
  | atEnd here node => simp
  | through here node rest ih =>
      exact List.forall_mem_cons.mpr ⟨⟨_, _, node, rest.references_ne_nil⟩, ih⟩

/-- The ways through the tree depend on nothing but the names and the named kids of fields. -/
theorem LeadsThrough.congr
    (hnodes : ∀ number, document'.fieldNode? number = document.fieldNode? number)
    (h : document.LeadsThrough levels above references containers name number) :
    document'.LeadsThrough levels above references containers name number := by
  induction h with
  | atEnd here node => exact .atEnd here ((hnodes _).trans node)
  | through here node rest ih => exact .through here ((hnodes _).trans node) ih

/-- What a field says itself comes first, and then what its containers say. -/
theorem inherited?_eq_or {α : Type} (document : Document) (read : Dictionary → Option α)
    (containers : List Nat) (number : Nat) :
    document.inherited? read containers number =
      ((document.dictionary? number).bind read).or
        (containers.reverse.findSome? fun place => (document.dictionary? place).bind read) := by
  rw [inherited?, List.findSome?_cons]
  cases (document.dictionary? number).bind read <;> rfl

end Document

namespace Form

/-! ## The tree of a flattened form -/

section Flattened

variable {form flat : Form} (h : form.IsSound) (hflatten : form.flatten = .ok flat)
include h hflatten

theorem IsSound.fieldNode?_flattened (number : Nat) :
    flat.document.fieldNode? number = form.document.fieldNode? number := by
  obtain ⟨-, -, -, hchanged⟩ := h.of_flatten hflatten
  exact Document.fieldNode?_changed h.distinct hchanged form.changesOnly_flattening (by simp)
    (by simp) number

/-- Flattening changes neither the terminal fields nor the ways to them. -/
theorem IsSound.isReached_flattened_iff (containers : List Nat) (name : String) (number : Nat) :
    flat.IsReached containers name number ↔ form.IsReached containers name number := by
  obtain ⟨-, hslot, -, hchanged⟩ := h.of_flatten hflatten
  have hroots : flat.roots = form.roots :=
    roots_changed h.distinct hslot hchanged fun place _ hn => form.form?_flattening place hn
  have hnodes := h.fieldNode?_flattened hflatten
  rw [IsReached, IsReached, hroots]
  exact ⟨fun hflat => hflat.congr fun number => (hnodes number).symm, fun hform =>
    hform.congr hnodes⟩

end Flattened

/-! ## Flags -/

/-- The flags that stand on a field itself. -/
def ownFlags? (form : Form) (number : Nat) : Option Int :=
  (form.document.dictionary? number).bind (Dictionary.int? · "Ff")

/-- The flags that count for a field behind some containers: its own, or those of the nearest
container above it that has any, or none. -/
def effectiveFlags (form : Form) (containers : List Nat) (number : Nat) : Int :=
  (form.document.inherited? (Dictionary.int? · "Ff") containers number).getD 0

/-- The flags that count for a field without any of its own. -/
def inheritedFlags (form : Form) (containers : List Nat) : Int :=
  (containers.reverse.findSome? form.ownFlags?).getD 0

theorem effectiveFlags_eq (form : Form) (containers : List Nat) (number : Nat) :
    form.effectiveFlags containers number =
      (form.ownFlags? number).getD (form.inheritedFlags containers) := by
  rw [effectiveFlags, Document.inherited?_eq_or]
  change ((form.ownFlags? number).or (containers.reverse.findSome? form.ownFlags?)).getD 0 = _
  cases form.ownFlags? number <;> rfl

/-- Numbers that lead to one dictionary are the same field of the tree. -/
theorem SharesPlace.fieldNode?_eq {form : Form} {number other : Nat}
    (h : form.SharesPlace number other) :
    form.document.fieldNode? number = form.document.fieldNode? other := by
  obtain ⟨place, hplace, hplace'⟩ := h
  obtain ⟨field, hat⟩ := Document.place?_eq_some_iff.mp hplace
  obtain ⟨field', hat'⟩ := Document.place?_eq_some_iff.mp hplace'
  obtain rfl := Document.dictionaryAt_unique hat hat'
  rw [Document.fieldNode?, Document.fieldNode?, Document.dictionary?_of_dictionaryAt hat,
    Document.dictionary?_of_dictionaryAt hat']

/-- An indexed field has no named kids. -/
theorem IsOpen.fieldNode?_of_mem {form : Form} (h : form.IsOpen) {number : Nat}
    (hmem : number ∈ form.fields.values) :
    ∃ own, form.document.fieldNode? number = some (own, []) := by
  obtain ⟨⟨name, _⟩, hslot, rfl⟩ := List.mem_map.mp hmem
  rw [h.index] at hslot
  obtain ⟨containers, hreached⟩ := Document.leadsTo_iff_exists_containers.mp
    (mem_terminals.mp (Ordered.mem_of_mem_ofPairs hslot))
  exact hreached.fieldNode?_last

/-- No indexed field has the dictionary of a container. -/
theorem IsOpen.not_sharesPlace_container {form : Form} (h : form.IsOpen)
    {containers : List Nat} {name : String} {number : Nat}
    (hreached : form.IsReached containers name number) {other container : Nat}
    (hother : other ∈ form.fields.values) (hcontainer : container ∈ containers) :
    ¬form.SharesPlace other container := by
  intro hshared
  obtain ⟨_, hlast⟩ := h.fieldNode?_of_mem hother
  obtain ⟨_, kids, hnode, hkids⟩ := hreached.fieldNode?_container container hcontainer
  rw [← hshared.fieldNode?_eq, hlast] at hnode
  cases hnode
  exact hkids rfl

section Flattened

variable {form flat : Form} (h : form.IsOpen) (hflatten : form.flatten = .ok flat)
include h hflatten

/-- Flattening gives every indexed field flags of its own. -/
theorem IsOpen.ownFlags?_flattened {number : Nat} (hmem : number ∈ form.fields.values) :
    flat.ownFlags? number = some (locked ((form.ownFlags? number).getD 0)) := by
  obtain ⟨-, -, -, hchanged⟩ := h.toIsSound.of_flatten hflatten
  obtain ⟨place, hplace⟩ := h.fields number hmem
  obtain ⟨field, hat⟩ := Document.place?_eq_some_iff.mp hplace
  have hfield := Document.dictionary?_of_dictionaryAt hat
  have hfound := @find?_flattening form place field (h.distinct number field hfield)
  rw [if_pos (List.mem_filterMap.mpr ⟨number, hmem, hplace⟩)] at hfound
  rw [ownFlags?, ownFlags?, Document.dictionary?_of_dictionaryAt (hchanged.dictionaryAt hat),
    hfield, Option.bind_some, Option.bind_some, Dictionary.int?, hfound]
  rfl

/-- Flattening keeps the flags of a dictionary at which no indexed field stands. -/
theorem IsOpen.ownFlags?_flattened_of_apart {number : Nat}
    (hapart : ∀ other ∈ form.fields.values, ¬form.SharesPlace other number) :
    flat.ownFlags? number = form.ownFlags? number := by
  obtain ⟨-, -, -, hchanged⟩ := h.toIsSound.of_flatten hflatten
  rw [ownFlags?, ownFlags?]
  rcases hchanged.exists_dictionary? number with
    ⟨hnone, hnone'⟩ | ⟨place, field, hat, hsome, hsome'⟩
  · rw [hnone, hnone']
  · have hout : place ∉ form.fields.values.filterMap form.document.place? := by
      intro hmem
      obtain ⟨other, hother, hplace⟩ := List.mem_filterMap.mp hmem
      exact hapart other hother ⟨place, hplace, Document.place?_eq_some_iff.mpr ⟨field, hat⟩⟩
    have hfound := @find?_flattening form place field (h.distinct number field hsome)
    rw [if_neg hout] at hfound
    rw [hsome, hsome', Option.bind_some, Option.bind_some, Dictionary.int?, hfound]
    rfl

/-- The containers of a field say the same before and after. -/
theorem IsOpen.inheritedFlags_flattened {containers : List Nat} {name : String} {number : Nat}
    (hreached : form.IsReached containers name number) :
    flat.inheritedFlags containers = form.inheritedFlags containers := by
  have hsame (container : Nat) (hcontainer : container ∈ containers.reverse) :
      flat.ownFlags? container = form.ownFlags? container :=
    h.ownFlags?_flattened_of_apart hflatten fun _ hother =>
      h.not_sharesPlace_container hreached hother (List.mem_reverse.mp hcontainer)
  rw [inheritedFlags, inheritedFlags, ← List.head?_filterMap, List.filterMap_congr hsame,
    List.head?_filterMap]

/-- What counts for an indexed field after flattening is what stood on the field itself. -/
theorem IsOpen.effectiveFlags_flattened {number : Nat} (hmem : number ∈ form.fields.values)
    (containers : List Nat) :
    flat.effectiveFlags containers number = locked ((form.ownFlags? number).getD 0) := by
  rw [effectiveFlags_eq, h.ownFlags?_flattened hflatten hmem, Option.getD_some]

end Flattened

theorem locked_eq_one_iff (flags : Int) : locked flags = 1 ↔ flags = 0 ∨ flags = 1 := by
  rw [locked]
  split
  · next hodd =>
    have hone : flags % 2 = 1 := eq_of_beq hodd
    omega
  · next heven =>
    have hzero : flags % 2 ≠ 1 := fun hone => heven (beq_iff_eq.mpr hone)
    omega

/-- Flags of the field itself are kept when it is locked, and those of its containers only if they
say nothing but that it is locked. -/
theorem locked_own_eq_iff (own : Option Int) (inherited : Int) :
    locked (own.getD 0) = locked (own.getD inherited) ↔
      own ≠ none ∨ own.getD inherited = 0 ∨ own.getD inherited = 1 := by
  cases own with
  | none =>
      have hzero : locked 0 = 1 := rfl
      rw [Option.getD_none, Option.getD_none, hzero, eq_comm, locked_eq_one_iff]
      simp
  | some flags => simp

/-- Whatever was called before, an opened form can be flattened, with the same index and the same
ways to the fields. Every indexed field is reached, and after flattening the flags that count for it
are its own with the first one added; what its containers say is as it was and no longer counts. So
the flags that counted before are kept, with the first one added, exactly when the field had flags
of its own or no flag but the first one counted for it. -/
theorem inherited_flags_are_hidden {document : Document} (hdistinct : document.HasDistinctNames)
    {opened form : Form} (h : ofDocument document = .ok opened) {calls : List Edit}
    (hform : opened.editedBy calls = form) :
    ∃ flat, form.flatten = .ok flat ∧ flat.fields = form.fields ∧
      (∀ containers name number,
        flat.IsReached containers name number ↔ form.IsReached containers name number) ∧
      ∀ name number, form.fields.find? name = some number →
        (∃ containers, form.IsReached containers name number) ∧
        ∀ containers, form.IsReached containers name number →
          let before := form.effectiveFlags containers number
          let after := flat.effectiveFlags containers number
          after = locked ((form.ownFlags? number).getD 0) ∧
          flat.inheritedFlags containers = form.inheritedFlags containers ∧
          (after = locked before ↔ form.ownFlags? number ≠ none ∨ before = 0 ∨ before = 1) := by
  obtain ⟨hopen, -, -⟩ := isOpen_of_calls hdistinct h hform
  obtain ⟨flat, hflatten, -⟩ := exists_flatten hopen.toIsSound
  obtain ⟨hfields, -, -, -⟩ := hopen.toIsSound.of_flatten hflatten
  refine ⟨flat, hflatten, hfields, hopen.toIsSound.isReached_flattened_iff hflatten,
    fun name number hfound => ⟨hopen.exists_containers hfound, fun containers hreached => ?_⟩⟩
  intro before after
  have hmem : number ∈ form.fields.values :=
    List.mem_map.mpr ⟨_, Ordered.mem_of_find? hfound, rfl⟩
  have hafter : after = locked ((form.ownFlags? number).getD 0) :=
    hopen.effectiveFlags_flattened hflatten hmem containers
  have hbefore : before = (form.ownFlags? number).getD (form.inheritedFlags containers) :=
    form.effectiveFlags_eq containers number
  refine ⟨hafter, hopen.inheritedFlags_flattened hflatten hreached, ?_⟩
  rw [hafter, hbefore]
  exact locked_own_eq_iff _ _

/-- A container of fields of several lines. Of its fields one has no flags, one has flags of its
own, and one is in a container whose fields are locked already. -/
def linesDocument : Document where
  objects := [
    (1, .dict [("AcroForm", .ref 2)]),
    (2, .dict [("Fields", .arr [.ref 3])]),
    (3, .dict [("Ff", .int 4096), ("Kids", .arr [.ref 4, .ref 5, .ref 6]),
      ("T", .bytes .literal [103])]),
    (4, .dict [("T", .bytes .literal [97])]),
    (5, .dict [("Ff", .int 2), ("T", .bytes .literal [98])]),
    (6, .dict [("Ff", .int 1), ("Kids", .arr [.ref 7]), ("T", .bytes .literal [104])]),
    (7, .dict [("T", .bytes .literal [99])])]
  trailer := [("Root", .ref 1)]

/-- After a filling, flattening keeps the flags of the field that has its own and of the one that is
locked by its container. -/
theorem inherited_flags_are_hidden_lines :
    ∃ opened form flat, ofDocument linesDocument = .ok opened ∧
      opened.editedBy [.fill "g.a" "é"] = form ∧ form.flatten = .ok flat ∧
      flat.effectiveFlags [3] 5 = 3 ∧ flat.effectiveFlags [3, 6] 7 = 1 := by
  have hdistinct : linesDocument.HasDistinctNames :=
    Document.hasDistinctNames_of_all (by decide)
  have hopen : ofDocument linesDocument =
      .ok ⟨linesDocument, [("g.a", 4), ("g.b", 5), ("g.h.c", 7)], .referenced 2⟩ := rfl
  obtain ⟨form, hcalls⟩ : ∃ form, Form.editedBy
      ⟨linesDocument, [("g.a", 4), ("g.b", 5), ("g.h.c", 7)], .referenced 2⟩
      [.fill "g.a" "é"] = form := ⟨_, rfl⟩
  have hgroup : form.document.fieldNode? 3 = some ("g", [4, 5, 6]) := hcalls ▸ rfl
  have hinner : form.document.fieldNode? 6 = some ("h", [7]) := hcalls ▸ rfl
  have hown : form.document.fieldNode? 5 = some ("b", []) := hcalls ▸ rfl
  have hlocked : form.document.fieldNode? 7 = some ("c", []) := hcalls ▸ rfl
  have hroots : form.roots = [3] := hcalls ▸ rfl
  obtain ⟨flat, hflatten, -, -, hflags⟩ := inherited_flags_are_hidden hdistinct hopen hcalls
  refine ⟨_, form, flat, hopen, hcalls, hflatten, ?_, ?_⟩
  · have hreached : form.IsReached [3] "g.b" 5 := by
      rw [IsReached, hroots]
      exact .through (List.mem_singleton_self 3) hgroup (.atEnd (by simp) hown)
    exact ((hflags "g.b" 5 (hcalls ▸ rfl)).2 [3] hreached).1.trans (hcalls ▸ rfl)
  · have hreached : form.IsReached [3, 6] "g.h.c" 7 := by
      rw [IsReached, hroots]
      exact .through (List.mem_singleton_self 3) hgroup
        (.through (by simp) hinner (.atEnd List.mem_cons_self hlocked))
    have hbefore : form.effectiveFlags [3, 6] 7 = 1 := hcalls ▸ rfl
    have hkept := ((hflags "g.h.c" 7 (hcalls ▸ rfl)).2 [3, 6] hreached).2.2.mpr
      (Or.inr (Or.inr hbefore))
    rw [hkept, hbefore]
    rfl

/-- The field without flags of its own is one of several lines before it is flattened, and it is
none afterwards. -/
theorem group_flag_hidden :
    ∃ opened flat, ofDocument linesDocument = .ok opened ∧ opened.flatten = .ok flat ∧
      opened.fields.find? "g.a" = some 4 ∧ opened.IsReached [3] "g.a" 4 ∧
      opened.effectiveFlags [3] 4 = 4096 ∧ flat.effectiveFlags [3] 4 = 1 := by
  have hgroup : linesDocument.fieldNode? 3 = some ("g", [4, 5, 6]) := rfl
  have hfield : linesDocument.fieldNode? 4 = some ("a", []) := rfl
  have hreached : linesDocument.LeadsThrough Document.fieldLevels none [3] [3] "g.a" 4 :=
    .through (List.mem_singleton_self 3) hgroup (.atEnd List.mem_cons_self hfield)
  exact ⟨⟨linesDocument, [("g.a", 4), ("g.b", 5), ("g.h.c", 7)], .referenced 2⟩, _, rfl, rfl, rfl,
    hreached, rfl, rfl⟩

end Form

end Stepwise.Pdf
