import Stepwise.Pdf.Notation
import Stepwise.Proofs.Json

/-!
# Changing the dictionaries of a document

A dictionary stands at a place of its own, and every chain of references that leads to it ends
there. So to change the dictionary behind a number is to change it for all numbers that lead to its
place, and for no others; references and other objects stay what they are. Any series of such
changes is described by what it does to the dictionary at each place.
-/

namespace Stepwise.Pdf

/-! ## Taking an entry out -/

namespace Dictionary

open Ordered (keys find?)

theorem lastFirst_perm (entries : Dictionary) : (lastFirst entries).Perm entries := by
  rw [lastFirst]
  cases hlast : entries.getLast? with
  | none => rw [List.getLast?_eq_none_iff.mp hlast]
  | some last =>
      obtain ⟨front, rfl⟩ := List.getLast?_eq_some_iff.mp hlast
      rw [List.dropLast_concat]
      exact (List.perm_append_singleton last front).symm

/-- The entry goes and the others stay, in some order. -/
theorem remove_perm {entries : Dictionary} (hn : (keys entries).Nodup) (key : String) :
    (remove entries key).Perm (entries.filter fun entry => entry.1 ≠ key) := by
  induction entries with
  | nil => exact List.Perm.nil
  | cons entry rest ih =>
      obtain ⟨name, value⟩ := entry
      obtain ⟨hfresh, hrest⟩ := List.nodup_cons.mp hn
      rw [remove]
      by_cases hname : name = key
      · subst hname
        have hothers : ∀ entry ∈ rest, decide (entry.1 ≠ name) = true := by
          intro entry hentry
          have hmem : entry.1 ∈ keys rest := List.mem_map_of_mem hentry
          exact decide_eq_true fun heq => hfresh (heq ▸ hmem)
        rw [if_pos rfl, List.filter_cons_of_neg (by simp), List.filter_eq_self.mpr hothers]
        exact lastFirst_perm rest
      · rw [if_neg hname, List.filter_cons_of_pos (by simpa using hname)]
        exact (ih hrest).cons _

theorem keys_nodup_remove {entries : Dictionary} (hn : (keys entries).Nodup) (key : String) :
    (keys (remove entries key)).Nodup := by
  have hperm : (keys (remove entries key)).Perm
      (keys (entries.filter fun entry => entry.1 ≠ key)) := (remove_perm hn key).map _
  exact hperm.nodup_iff.mpr (hn.sublist (List.filter_sublist.map _))

/-- With distinct names only the entry of the name is taken out. -/
theorem find?_remove {entries : Dictionary} (hn : (keys entries).Nodup) (key other : String) :
    find? (remove entries key) other = if key = other then none else find? entries other := by
  have hperm := remove_perm hn key
  have hremoved := keys_nodup_remove hn key
  by_cases hkey : key = other
  · subst hkey
    rw [if_pos rfl, Ordered.find?_eq_none_iff]
    intro hmem
    obtain ⟨entry, hentry, hname⟩ := List.mem_map.mp hmem
    have hkept := (List.mem_filter.mp (hperm.mem_iff.mp hentry)).2
    simp [hname] at hkept
  · rw [if_neg hkey]
    have hmem (value : Object) :
        find? (remove entries key) other = some value ↔ find? entries other = some value := by
      constructor
      · intro hfound
        have hentry := hperm.mem_iff.mp (Ordered.mem_of_find? hfound)
        exact Ordered.find?_of_mem hn (List.mem_filter.mp hentry).1
      · intro hfound
        have hentry := List.mem_filter (p := fun entry => decide (entry.1 ≠ key)).mpr
          ⟨Ordered.mem_of_find? hfound, by simpa using Ne.symm hkey⟩
        exact Ordered.find?_of_mem hremoved (hperm.mem_iff.mpr hentry)
    exact Option.ext hmem

end Dictionary

/-! ## Places -/

namespace Document

variable {document : Document}

theorem entry?_replace (document : Document) (number : Nat) (object : Object) (other : Nat) :
    entry? (document.replace number object) other =
      (document.entry? other).map fun old => if other = number then object else old := by
  obtain ⟨objects, trailer⟩ := document
  simp only [replace, entry?]
  induction objects with
  | nil => rfl
  | cons slot rest ih =>
      obtain ⟨k, v⟩ := slot
      have hkey : (if k = number then (number, object) else (k, v)) =
          (k, if k = number then object else v) := by
        split
        · next h => rw [h]
        · rfl
      rw [List.map_cons, hkey, List.lookup_cons, List.lookup_cons, ih]
      by_cases hother : other = k
      · subst hother
        simp
      · simp [beq_eq_false_iff_ne.mpr hother]

/-! ## Following references -/

section Chase

variable {steps number next : Nat} {object found : Object}

theorem chase_of_object (h : object.asReference? = none) :
    document.chase steps number object = .ok (number, object) := by
  rw [chase, h]

theorem chase_of_missing (h : object.asReference? = some next)
    (hnext : document.entry? next = none) :
    document.chase steps number object = .error .missingObject := by
  rw [chase.eq_def]
  simp only [h, hnext]

theorem chase_of_limit (h : object.asReference? = some next)
    (hnext : document.entry? next = some found) :
    document.chase 0 number object = .error .referenceLimit := by
  rw [chase, h]
  simp only [hnext]

theorem chase_of_next (h : object.asReference? = some next)
    (hnext : document.entry? next = some found) :
    document.chase (steps + 1) number object = document.chase steps next found := by
  rw [chase, h]
  simp only [hnext]

/-- A chain of references ends at an object that stands at its place. -/
theorem entry?_of_chase {place : Nat} (hnumber : document.entry? number = some object)
    (h : document.chase steps number object = .ok (place, found)) :
    document.entry? place = some found := by
  fun_induction document.chase steps number object with
  | case1 steps number object hreference =>
      cases h
      exact hnumber
  | case2 => cases h
  | case3 => cases h
  | case4 number object next hreference found' steps hnext ih => exact ih hnext h

end Chase

theorem entry?_of_dictionaryAt {number place : Nat} {entries : Dictionary}
    (h : document.dictionaryAt number = .ok (place, entries)) :
    document.entry? place = some (.dict entries) := by
  rw [dictionaryAt, follow] at h
  cases hnumber : document.entry? number with
  | none =>
      rw [hnumber] at h
      cases h
  | some object =>
      simp only [hnumber] at h
      cases hchase : document.chase referenceLimit number object with
      | error e =>
          rw [hchase] at h
          cases h
      | ok found =>
          obtain ⟨place', object'⟩ := found
          have hentry := entry?_of_chase hnumber hchase
          rw [hchase] at h
          cases object' with
          | dict entries' =>
              cases h
              exact hentry
          | null | bool | int | name | arr | ref | bytes => cases h

/-- At one place there is one dictionary. -/
theorem dictionaryAt_unique {number other place : Nat} {entries entries' : Dictionary}
    (h : document.dictionaryAt number = .ok (place, entries))
    (h' : document.dictionaryAt other = .ok (place, entries')) : entries = entries' := by
  have hentry := entry?_of_dictionaryAt h
  rw [ entry?_of_dictionaryAt h'] at hentry
  cases hentry
  rfl

/-- A dictionary in the place of another one is behind the same references. -/
theorem chase_replace {place : Nat} {entries : Dictionary}
    (hplace : document.entry? place = some (.dict entries)) (change : Dictionary) (steps : Nat)
    {number : Nat} {object : Object} (hnumber : document.entry? number = some object) :
    (document.replace place (.dict change)).chase steps number
        (if number = place then .dict change else object) =
      (document.chase steps number object).map fun found =>
        (found.1, if found.1 = place then .dict change else found.2) := by
  have hne {number next : Nat} {object : Object} (hnumber : document.entry? number = some object)
      (hreference : object.asReference? = some next) : number ≠ place := by
    rintro rfl
    rw [hplace] at hnumber
    cases hnumber
    cases hreference
  fun_induction document.chase steps number object with
  | case1 steps number object hreference =>
      have hchanged : (if number = place then .dict change else object).asReference? = none := by
        split
        · rfl
        · exact hreference
      rw [chase_of_object hchanged]
      rfl
  | case2 steps number object next hreference hnext =>
      have hentry := entry?_replace document place (.dict change) next
      rw [hnext] at hentry
      rw [if_neg (hne hnumber hreference), chase_of_missing hreference hentry]
      rfl
  | case3 number object next hreference found hnext =>
      have hentry := entry?_replace document place (.dict change) next
      rw [hnext] at hentry
      rw [if_neg (hne hnumber hreference), chase_of_limit hreference hentry]
      rfl
  | case4 number object next hreference found steps hnext ih =>
      have hentry := entry?_replace document place (.dict change) next
      rw [hnext] at hentry
      rw [if_neg (hne hnumber hreference), chase_of_next hreference hentry]
      exact ih hnext

theorem dictionaryAt_replace {place : Nat} {entries : Dictionary}
    (hplace : document.entry? place = some (.dict entries)) (change : Dictionary) (number : Nat) :
    (document.replace place (.dict change)).dictionaryAt number =
      (document.dictionaryAt number).map fun found =>
        (found.1, if found.1 = place then change else found.2) := by
  have hentry := entry?_replace document place (.dict change) number
  rw [dictionaryAt, follow, dictionaryAt, follow, hentry]
  cases hnumber : document.entry? number with
  | none => rfl
  | some object =>
      simp only [Option.map_some, chase_replace hplace change referenceLimit hnumber]
      cases hchase : document.chase referenceLimit number object with
      | error e => rfl
      | ok found =>
          obtain ⟨place', object'⟩ := found
          by_cases hsame : place' = place
          · have hdict := entry?_of_chase hnumber hchase
            rw [hsame, hplace] at hdict
            cases hdict
            simp [Except.map, hsame, Object.asDictionary?]
          · cases hdict : object'.asDictionary? <;> simp [Except.map, hsame, hdict]

/-! ## Changes -/

/-- The place to which the references from a number lead, if a dictionary stands there. -/
def place? (document : Document) (number : Nat) : Option Nat :=
  match document.dictionaryAt number with
  | .ok found => some found.1
  | .error _ => none

theorem place?_eq_some_iff {number place : Nat} :
    document.place? number = some place ↔
      ∃ entries, document.dictionaryAt number = .ok (place, entries) := by
  rw [place?]
  cases document.dictionaryAt number with
  | error e => simp
  | ok found =>
      obtain ⟨place', entries⟩ := found
      simp

theorem dictionary?_of_dictionaryAt {number place : Nat} {entries : Dictionary}
    (h : document.dictionaryAt number = .ok (place, entries)) :
    document.dictionary? number = some entries := by
  rw [dictionary?, h]

theorem exists_dictionaryAt {number : Nat} {entries : Dictionary}
    (h : document.dictionary? number = some entries) :
    ∃ place, document.dictionaryAt number = .ok (place, entries) := by
  rw [dictionary?] at h
  cases hfound : document.dictionaryAt number with
  | error e =>
      rw [hfound] at h
      cases h
  | ok found =>
      rw [hfound] at h
      cases h
      exact ⟨found.1, rfl⟩

/-- The second document is the first one with the dictionary at each place changed. -/
def Changed (change : Nat → Dictionary → Dictionary) (document document' : Document) : Prop :=
  document'.trailer = document.trailer ∧ ∀ number, document'.dictionaryAt number =
    (document.dictionaryAt number).map fun found => (found.1, change found.1 found.2)

namespace Changed

variable {document' document'' : Document} {change change' : Nat → Dictionary → Dictionary}

theorem refl (document : Document) : Changed (fun _ entries => entries) document document := by
  refine ⟨rfl, fun number => ?_⟩
  cases document.dictionaryAt number <;> rfl

theorem trans (h : Changed change document document') (h' : Changed change' document' document'') :
    Changed (fun place entries => change' place (change place entries)) document document'' := by
  refine ⟨h'.1.trans h.1, fun number => ?_⟩
  rw [h'.2, h.2]
  cases document.dictionaryAt number <;> rfl

/-- Only what is done to the dictionaries of the document counts. -/
theorem congr (h : Changed change document document')
    (hchange : ∀ number place entries, document.dictionaryAt number = .ok (place, entries) →
      change place entries = change' place entries) :
    Changed change' document document' := by
  refine ⟨h.1, fun number => ?_⟩
  rw [h.2]
  cases hat : document.dictionaryAt number with
  | error e => rfl
  | ok found =>
      obtain ⟨place, entries⟩ := found
      simp [Except.map, hchange number place entries hat]

theorem dictionaryAt (h : Changed change document document') {number place : Nat}
    {entries : Dictionary} (hat : document.dictionaryAt number = .ok (place, entries)) :
    document'.dictionaryAt number = .ok (place, change place entries) := by
  rw [h.2, hat]
  rfl

theorem place? (h : Changed change document document') (number : Nat) :
    document'.place? number = document.place? number := by
  rw [Document.place?, Document.place?, h.2]
  cases document.dictionaryAt number <;> rfl

end Changed

/-- The dictionaries of a document have distinct names. -/
def HasDistinctNames (document : Document) : Prop :=
  ∀ number entries, document.dictionary? number = some entries → (Ordered.keys entries).Nodup

theorem hasDistinctNames_of_objects
    (h : ∀ slot ∈ document.objects, ∀ entries, slot.2 = .dict entries →
      (Ordered.keys entries).Nodup) : document.HasDistinctNames := by
  intro number entries hentries
  obtain ⟨place, hat⟩ := exists_dictionaryAt hentries
  obtain ⟨before, after, hsplit, -⟩ := List.lookup_eq_some_iff.mp (entry?_of_dictionaryAt hat)
  exact h (place, .dict entries) (by simp [hsplit]) entries rfl

/-- Distinct names can be checked object by object. -/
theorem hasDistinctNames_of_all {document : Document}
    (h : (document.objects.all fun slot =>
      slot.2.asDictionary?.all fun entries => decide (Ordered.keys entries).Nodup) = true) :
    document.HasDistinctNames := by
  apply hasDistinctNames_of_objects
  intro slot hslot entries hentries
  have hchecked := List.all_eq_true.mp h slot hslot
  rw [hentries] at hchecked
  exact of_decide_eq_true hchecked

theorem keys_ofMembers (members : List (String × Json)) :
    Ordered.keys (Object.ofMembers members) = Ordered.keys members := by
  induction members with
  | nil => rfl
  | cons member rest ih => exact congrArg (member.1 :: ·) ih

theorem keys_nodup_of_ofJson {v : Json} (h : v.IsNormal) {entries : Dictionary}
    (hentries : Object.ofJson v = .dict entries) : (Ordered.keys entries).Nodup := by
  rw [Object.ofJson.eq_def] at hentries
  split at hentries <;> cases hentries
  next members =>
    have hmembers : (Json.obj members).IsNormal :=
      ((Json.isNormal_obj_iff _).mp h).2 _ (List.mem_singleton_self _)
    rw [keys_ofMembers]
    exact ((Json.isNormal_obj_iff members).mp hmembers).1

/-- A document that is written as a value without repeated names has distinct names. -/
theorem hasDistinctNames_ofJson {v : Json} (h : v.IsNormal) : (ofJson v).HasDistinctNames := by
  have hmember (key : String) : ((v.member? key).getD .null).IsNormal := by
    cases v with
    | obj members =>
        cases hfound : Ordered.find? members key with
        | none => simp [Json.member?, hfound]
        | some value =>
            have hvalue := ((Json.isNormal_obj_iff members).mp h).2 _ (Ordered.mem_of_find? hfound)
            simpa [Json.member?, hfound] using hvalue
    | _ => simp [Json.member?]
  apply hasDistinctNames_of_objects
  intro slot hslot entries hentries
  obtain ⟨member, hnumbered, hslot⟩ := List.mem_filterMap.mp (List.mem_mergeSort.mp hslot)
  obtain ⟨number, -, rfl⟩ := Option.map_eq_some_iff.mp hslot
  refine keys_nodup_of_ofJson ?_ hentries
  have hobjects := hmember "objects"
  cases hvalue : (v.member? "objects").getD .null with
  | obj members =>
      rw [hvalue] at hobjects hnumbered
      exact ((Json.isNormal_obj_iff members).mp hobjects).2 member hnumbered
  | _ =>
      rw [hvalue] at hnumbered
      cases hnumbered

/-- A change keeps names distinct, and it touches no entries but those of some names. -/
structure ChangesOnly (names : List String) (change : Nat → Dictionary → Dictionary) : Prop where
  nodup : ∀ place entries, (Ordered.keys entries).Nodup →
    (Ordered.keys (change place entries)).Nodup
  find?_eq : ∀ place entries, (Ordered.keys entries).Nodup → ∀ key, key ∉ names →
    Ordered.find? (change place entries) key = Ordered.find? entries key

namespace ChangesOnly

variable {names names' : List String} {change change' : Nat → Dictionary → Dictionary}

theorem refl (names : List String) : ChangesOnly names fun _ entries => entries :=
  ⟨fun _ _ hn => hn, fun _ _ _ _ _ => rfl⟩

theorem trans (h : ChangesOnly names change) (h' : ChangesOnly names change') :
    ChangesOnly names fun place entries => change' place (change place entries) where
  nodup _ _ hn := h'.nodup _ _ (h.nodup _ _ hn)
  find?_eq _ _ hn key hkey :=
    (h'.find?_eq _ _ (h.nodup _ _ hn) key hkey).trans (h.find?_eq _ _ hn key hkey)

theorem mono (h : ChangesOnly names change) (hsubset : names ⊆ names') :
    ChangesOnly names' change where
  nodup := h.nodup
  find?_eq place entries hn key hkey := h.find?_eq place entries hn key fun hmem =>
    hkey (hsubset hmem)

/-- A change at some of the places. -/
theorem ite (h : ChangesOnly names change) (p : Nat → Prop) [DecidablePred p] :
    ChangesOnly names fun place entries => if p place then change place entries else entries where
  nodup place entries hn := by
    split
    · exact h.nodup place entries hn
    · exact hn
  find?_eq place entries hn key hkey := by
    split
    · exact h.find?_eq place entries hn key hkey
    · rfl

theorem set (value : Dictionary → Object) (name : String) :
    ChangesOnly [name] fun _ entries => Ordered.set entries name (value entries) where
  nodup _ _ hn := Ordered.keys_nodup_set hn name _
  find?_eq _ _ _ key hkey := by
    rw [Ordered.find?_set, if_neg (Ne.symm (List.ne_of_not_mem_cons hkey))]

theorem remove (name : String) :
    ChangesOnly [name] fun _ entries => Dictionary.remove entries name where
  nodup _ _ hn := Dictionary.keys_nodup_remove hn name
  find?_eq _ _ hn key hkey := by
    rw [Dictionary.find?_remove hn, if_neg (Ne.symm (List.ne_of_not_mem_cons hkey))]

end ChangesOnly

theorem Changed.exists_dictionary? {document' : Document} {change : Nat → Dictionary → Dictionary}
    (h : Changed change document document') (number : Nat) :
    (document.dictionary? number = none ∧ document'.dictionary? number = none) ∨
    ∃ place entries, document.dictionaryAt number = .ok (place, entries) ∧
      document.dictionary? number = some entries ∧
      document'.dictionary? number = some (change place entries) := by
  cases hat : document.dictionaryAt number with
  | error e =>
      have hat' := h.2 number
      rw [hat] at hat'
      exact Or.inl ⟨by rw [dictionary?, hat], by rw [dictionary?, hat']; rfl⟩
  | ok found =>
      obtain ⟨place, entries⟩ := found
      exact Or.inr ⟨place, entries, rfl, dictionary?_of_dictionaryAt hat,
        dictionary?_of_dictionaryAt (h.dictionaryAt hat)⟩

theorem HasDistinctNames.changed {document' : Document} {change : Nat → Dictionary → Dictionary}
    {names : List String} (hdistinct : document.HasDistinctNames)
    (h : Changed change document document') (honly : ChangesOnly names change) :
    document'.HasDistinctNames := by
  intro number entries hentries
  rcases h.exists_dictionary? number with ⟨-, hnone⟩ | ⟨place, before, -, hbefore, hafter⟩
  · rw [hnone] at hentries
    cases hentries
  · rw [hafter] at hentries
    obtain rfl := Option.some.inj hentries
    exact honly.nodup place before (hdistinct number before hbefore)

/-- A change behind a number is made at its place. -/
theorem changeDictionary_of_dictionaryAt {number place : Nat} {entries : Dictionary}
    (h : document.dictionaryAt number = .ok (place, entries)) (change : Dictionary → Dictionary) :
    ∃ document', document.changeDictionary number change = .ok document' ∧
      Changed (fun at' entries => if at' = place then change entries else entries)
        document document' := by
  refine ⟨document.replace place (.dict (change entries)), ?_, rfl, fun other => ?_⟩
  · rw [changeDictionary, h]
  · rw [dictionaryAt_replace (entry?_of_dictionaryAt h)]
    cases hother : document.dictionaryAt other with
    | error e => rfl
    | ok found =>
        obtain ⟨place', entries'⟩ := found
        by_cases hsame : place' = place
        · subst hsame
          simp [Except.map, dictionaryAt_unique h hother]
        · simp [Except.map, hsame]

end Document

end Stepwise.Pdf
