import Mathlib.Data.List.Chain
import Mathlib.Data.List.Nodup
import Stepwise.Proofs.Pdf.Fields

/-!
# The index of fields

A way leads from the references of one array into the tree of fields: each further reference stands
in the `Kids` of the dictionary before it, and its own dictionary has a name. Ways are told apart by
the places of their references, so a document whose references are shared or lead back has as many
ways as the walk through it has turns, and the order of their places is the order of the walk.

The ways that end in a terminal field, and are not longer than the tree may be deep, say what the
index of a form is: their names and numbers are stored in turn.
-/

namespace Stepwise.Pdf

/-- A reference in an array: its place there, and the number it holds. -/
structure Link where
  place : Nat
  number : Nat
  deriving DecidableEq, Repr

/-- The array has the reference at its place. -/
def Link.StandsIn (link : Link) (entries : List Object) : Prop :=
  entries[link.place]? = some (.ref link.number)

/-- The references of an array, in order. -/
def links (entries : List Object) : List Link :=
  entries.zipIdx.filterMap fun slot => slot.1.asReference?.map fun number => ⟨slot.2, number⟩

theorem asReference?_eq_some_iff {object : Object} {number : Nat} :
    object.asReference? = some number ↔ object = .ref number := by
  cases object <;> simp [Object.asReference?]

theorem mem_links {link : Link} {entries : List Object} :
    link ∈ links entries ↔ link.StandsIn entries := by
  obtain ⟨place, number⟩ := link
  simp [links, Link.StandsIn, List.mem_filterMap, List.mem_zipIdx_iff_getElem?,
    asReference?_eq_some_iff]

theorem number_links (entries : List Object) :
    (links entries).map Link.number = entries.filterMap Object.asReference? := by
  have hnumber (slot : Object × Nat) :
      (slot.1.asReference?.map fun number => (⟨slot.2, number⟩ : Link)).map Link.number =
        slot.1.asReference? := by
    cases slot.1.asReference? <;> rfl
  rw [links, List.map_filterMap]
  simp only [hnumber]
  rw [← Function.comp_def Object.asReference? Prod.fst, ← List.filterMap_map, List.zipIdx_map_fst]

theorem place_links (entries : List Object) :
    (links entries).Pairwise fun link later => link.place < later.place := by
  have hplaces : entries.zipIdx.Pairwise fun slot later => slot.2 < later.2 := by
    rw [← List.pairwise_map (f := Prod.snd) (R := (· < ·)), List.zipIdx_map_snd]
    exact List.pairwise_lt_range'
  refine hplaces.filterMap _ fun slot later hlt link hlink link' hlink' => ?_
  obtain ⟨number, -, rfl⟩ := Option.map_eq_some_iff.mp hlink
  obtain ⟨number', -, rfl⟩ := Option.map_eq_some_iff.mp hlink'
  exact hlt

namespace Document

/-- The entries in the `Kids` of the dictionary behind a number. -/
def kidEntries (document : Document) (number : Nat) : List Object :=
  ((document.dictionary? number).bind (Dictionary.array? · "Kids")).getD []

/-- Whether a number leads to a dictionary with a name, whatever object the name is. -/
def isNamed (document : Document) (number : Nat) : Bool :=
  match document.dictionary? number with
  | some entries => Ordered.has entries "T"
  | none => false

/-- The text of the name of the dictionary behind a number, if it is a string. -/
def nameAt? (document : Document) (number : Nat) : Option String :=
  (document.dictionary? number).bind ownName?

/-- The references in the `Kids` of a field that lead to dictionaries with a name. -/
def namedKidsAt (document : Document) (number : Nat) : List Nat :=
  ((document.kidEntries number).filterMap Object.asReference?).filter document.isNamed

/-- Whether a reference in the `Kids` of a field leads to a dictionary with a name. -/
def HasNamedKid (document : Document) (number : Nat) : Prop :=
  ∃ kid, .ref kid ∈ document.kidEntries number ∧ document.isNamed kid

/-- References that lead from an array through kids with names. -/
structure IsWay (document : Document) (entries : List Object) (way : List Link) : Prop where
  starts : ∃ first ∈ way.head?, first.StandsIn entries
  goesOn : way.IsChain fun upper lower =>
    lower.StandsIn (document.kidEntries upper.number) ∧ document.isNamed lower.number

/-- A way whose names are strings and that ends in a field without named kids. -/
structure IsFieldWay (document : Document) (entries : List Object) (way : List Link) : Prop
    extends IsWay document entries way where
  named : ∀ link ∈ way, (document.nameAt? link.number).isSome
  ends : ∀ last ∈ way.getLast?, ¬document.HasNamedKid last.number

/-- The names along a way. -/
def wayNames (document : Document) (way : List Link) : List String :=
  way.filterMap fun link => document.nameAt? link.number

/-- The names along a way, joined by points. -/
def wayName (document : Document) (way : List Link) : String :=
  ".".intercalate (document.wayNames way)

/-- The name of a way and the number at its end. -/
def wayField? (document : Document) (way : List Link) : Option (String × Nat) :=
  way.getLast?.map fun last => (document.wayName way, last.number)

/-- The ways through a reference: the reference alone if it leads to a terminal field, and in front
of each of the ways from its kids if it leads to a container. -/
def waysThrough (document : Document) (link : Link) (fromKids : List (List Link)) :
    List (List Link) :=
  match document.fieldNode? link.number with
  | none => []
  | some (_, []) => [[link]]
  | some (_, _ :: _) => fromKids.map (link :: ·)

/-- The ways to terminal fields from an array, down to a number of levels. -/
def fieldWays (document : Document) : Nat → List Object → List (List Link)
  | 0, _ => []
  | levels + 1, entries =>
      (links entries).flatMap fun link =>
        document.waysThrough link (document.fieldWays levels (document.kidEntries link.number))

variable {document : Document} {entries : List Object} {link : Link} {below way : List Link}

/-! ## The fields on a way -/

theorem isNamed_of_nameAt? {number : Nat} {own : String}
    (h : document.nameAt? number = some own) : document.isNamed number = true := by
  obtain ⟨field, hfield, hown⟩ := Option.bind_eq_some_iff.mp h
  obtain ⟨bytes, hbytes, -⟩ := Option.map_eq_some_iff.mp hown
  obtain ⟨name, hname, -⟩ := Option.bind_eq_some_iff.mp hbytes
  rw [isNamed, hfield]
  simp [Ordered.has, hname]

/-- A field is read from its name and the references in its `Kids`. -/
theorem fieldNode?_eq (number : Nat) :
    document.fieldNode? number =
      (document.nameAt? number).map fun own => (own, document.namedKidsAt number) := by
  rw [fieldNode?, nameAt?, namedKidsAt, kidEntries]
  cases document.dictionary? number with
  | none => rfl
  | some field => rfl

theorem namedKidsAt_eq_nil_iff (number : Nat) :
    document.namedKidsAt number = [] ↔ ¬document.HasNamedKid number := by
  rw [namedKidsAt, List.filter_eq_nil_iff, HasNamedKid, not_exists]
  refine forall_congr' fun kid => ?_
  rw [List.mem_filterMap, not_and]
  simp [asReference?_eq_some_iff]

theorem not_isWay_nil : ¬document.IsWay entries [] := by
  rintro ⟨⟨first, hfirst, -⟩, -⟩
  cases hfirst

/-- A way is a reference of the array, alone or in front of a way from the kids behind it. -/
theorem isWay_cons_iff : document.IsWay entries (link :: below) ↔
    link.StandsIn entries ∧
      (below = [] ∨ document.IsWay (document.kidEntries link.number) below ∧
        ∃ next ∈ below.head?, document.isNamed next.number) := by
  constructor
  · rintro ⟨⟨first, hfirst, hstands⟩, hgoes⟩
    obtain rfl := Option.some.inj hfirst
    refine ⟨hstands, ?_⟩
    cases below with
    | nil => exact .inl rfl
    | cons next rest =>
        obtain ⟨⟨hnext, hnamed⟩, hrest⟩ := List.isChain_cons_cons.mp hgoes
        exact .inr ⟨⟨⟨next, rfl, hnext⟩, hrest⟩, next, rfl, hnamed⟩
  · rintro ⟨hstands, rfl | ⟨⟨⟨next, hhead, hnext⟩, hrest⟩, next', hhead', hnamed⟩⟩
    · exact ⟨⟨link, rfl, hstands⟩, List.isChain_singleton _⟩
    · obtain rfl := Option.mem_unique hhead hhead'
      obtain ⟨rest, rfl⟩ := List.head?_eq_some_iff.mp hhead
      exact ⟨⟨link, rfl, hstands⟩, List.isChain_cons_cons.mpr ⟨⟨hnext, hnamed⟩, hrest⟩⟩

/-- A way to a terminal field is such a field of the array, or a named one in front of a way from
its kids. -/
theorem isFieldWay_cons_iff : document.IsFieldWay entries (link :: below) ↔
    link.StandsIn entries ∧ (document.nameAt? link.number).isSome ∧
      ((below = [] ∧ ¬document.HasNamedKid link.number) ∨
        document.IsFieldWay (document.kidEntries link.number) below) := by
  constructor
  · rintro ⟨hway, hnamed, hends⟩
    obtain ⟨hlink, hbelow⟩ := List.forall_mem_cons.mp hnamed
    obtain ⟨hstands, rfl | ⟨hrest, next, hnext, -⟩⟩ := isWay_cons_iff.mp hway
    · exact ⟨hstands, hlink, .inl ⟨rfl, hends link rfl⟩⟩
    · obtain ⟨rest, rfl⟩ := List.head?_eq_some_iff.mp hnext
      simp only [List.getLast?_cons_cons] at hends
      exact ⟨hstands, hlink, .inr ⟨hrest, hbelow, hends⟩⟩
  · rintro ⟨hstands, hlink, ⟨rfl, hends⟩ | ⟨hrest, hnamed, hends⟩⟩
    · refine ⟨isWay_cons_iff.mpr ⟨hstands, .inl rfl⟩, by simpa using hlink, fun last hlast => ?_⟩
      obtain rfl := Option.some.inj hlast
      exact hends
    · obtain ⟨next, hnext, -⟩ := hrest.starts
      obtain ⟨rest, rfl⟩ := List.head?_eq_some_iff.mp hnext
      obtain ⟨own, hown⟩ := Option.isSome_iff_exists.mp (hnamed next List.mem_cons_self)
      refine ⟨isWay_cons_iff.mpr ⟨hstands, .inr ⟨hrest, next, hnext, isNamed_of_nameAt? hown⟩⟩,
        List.forall_mem_cons.mpr ⟨hlink, hnamed⟩, ?_⟩
      rwa [List.getLast?_cons_cons]

/-- In front of a way to a terminal field stands a field with a named kid. -/
theorem IsFieldWay.hasNamedKid {number : Nat}
    (h : document.IsFieldWay (document.kidEntries number) way) : document.HasNamedKid number := by
  obtain ⟨next, hnext, hstands⟩ := h.starts
  obtain ⟨own, hown⟩ := Option.isSome_iff_exists.mp (h.named next (List.mem_of_mem_head? hnext))
  exact ⟨next.number, List.mem_of_getElem? hstands, isNamed_of_nameAt? hown⟩

/-! ## The walk along all ways -/

theorem mem_waysThrough_iff {fromKids : List (List Link)} :
    way ∈ document.waysThrough link fromKids ↔ ∃ below, way = link :: below ∧
      (document.nameAt? link.number).isSome ∧
        ((below = [] ∧ ¬document.HasNamedKid link.number) ∨
          (document.HasNamedKid link.number ∧ below ∈ fromKids)) := by
  rw [waysThrough, fieldNode?_eq]
  cases document.nameAt? link.number with
  | none => simp
  | some own =>
      have hkids := document.namedKidsAt_eq_nil_iff link.number
      rw [Option.map_some]
      cases hnamed : document.namedKidsAt link.number with
      | nil =>
          have hlast := hkids.mp hnamed
          simp [hlast]
      | cons kid rest =>
          have hkid : document.HasNamedKid link.number := by
            rw [← not_not (a := document.HasNamedKid _), ← hkids, hnamed]
            exact List.cons_ne_nil kid rest
          simp [hkid, and_comm, eq_comm]

/-- The walk takes the ways to terminal fields that are not longer than its levels. -/
theorem mem_fieldWays_iff {levels : Nat} :
    way ∈ document.fieldWays levels entries ↔
      document.IsFieldWay entries way ∧ way.length ≤ levels := by
  induction levels generalizing entries way with
  | zero =>
      refine iff_of_false List.not_mem_nil fun ⟨hway, hlength⟩ => ?_
      rw [List.length_eq_zero_iff.mp (Nat.le_zero.mp hlength)] at hway
      exact not_isWay_nil hway.toIsWay
  | succ levels ih =>
      simp only [fieldWays, List.mem_flatMap, mem_links, mem_waysThrough_iff]
      constructor
      · rintro ⟨link, hstands, below, rfl, hname, ⟨rfl, hends⟩ | ⟨-, hbelow⟩⟩
        · refine ⟨isFieldWay_cons_iff.mpr ⟨hstands, hname, .inl ⟨rfl, hends⟩⟩, ?_⟩
          exact Nat.succ_le_succ (Nat.zero_le levels)
        · obtain ⟨hrest, hlength⟩ := ih.mp hbelow
          exact ⟨isFieldWay_cons_iff.mpr ⟨hstands, hname, .inr hrest⟩, Nat.succ_le_succ hlength⟩
      · rintro ⟨hway, hlength⟩
        cases way with
        | nil => exact (not_isWay_nil hway.toIsWay).elim
        | cons link below =>
            obtain ⟨hstands, hname, hend | hrest⟩ := isFieldWay_cons_iff.mp hway
            · exact ⟨link, hstands, below, rfl, hname, .inl hend⟩
            · have hbelow := ih.mpr ⟨hrest, Nat.le_of_succ_le_succ hlength⟩
              exact ⟨link, hstands, below, rfl, hname, .inr ⟨hrest.hasNamedKid, hbelow⟩⟩

/-- The walk takes the ways in the order of their places. -/
theorem fieldWays_inOrder (levels : Nat) (entries : List Object) :
    (document.fieldWays levels entries).Pairwise fun way later =>
      way.map Link.place < later.map Link.place := by
  induction levels generalizing entries with
  | zero => exact List.Pairwise.nil
  | succ levels ih =>
      rw [fieldWays, List.pairwise_flatMap]
      constructor
      · intro link _
        rw [waysThrough]
        split
        · exact List.Pairwise.nil
        · exact List.pairwise_singleton _ _
        · refine List.pairwise_map.mpr ((ih _).imp fun {way later} hlt => ?_)
          exact List.cons_lt_cons_iff.mpr (.inr ⟨rfl, hlt⟩)
      · refine (place_links entries).imp fun {link later} hplace way hway way' hway' => ?_
        obtain ⟨below, rfl, -⟩ := mem_waysThrough_iff.mp hway
        obtain ⟨below', rfl, -⟩ := mem_waysThrough_iff.mp hway'
        exact List.cons_lt_cons_iff.mpr (.inl hplace)

/-! ## The names of ways -/

/-- What is below a name is below the name above it. -/
theorem qualified_qualified (above : Option String) (own name : String) :
    qualified (some (qualified above own)) name = qualified above (own ++ "." ++ name) := by
  cases above <;> simp [qualified, String.append_assoc]

theorem wayNames_cons {own : String} (hown : document.nameAt? link.number = some own)
    (below : List Link) :
    document.wayNames (link :: below) = own :: document.wayNames below := by
  simp [wayNames, hown]

theorem IsFieldWay.wayNames_ne_nil (h : document.IsFieldWay entries way) :
    document.wayNames way ≠ [] := by
  obtain ⟨first, hfirst, -⟩ := h.starts
  obtain ⟨rest, rfl⟩ := List.head?_eq_some_iff.mp hfirst
  obtain ⟨own, hown⟩ := Option.isSome_iff_exists.mp (h.named first List.mem_cons_self)
  rw [wayNames_cons hown]
  exact List.cons_ne_nil own _

theorem wayField?_singleton {own : String} (hown : document.nameAt? link.number = some own) :
    document.wayField? [link] = some (own, link.number) := by
  rw [wayField?, wayName, wayNames_cons hown]
  rfl

/-- The name of a container stands in front of the names of the ways through it. -/
theorem wayField?_cons {own : String} (hown : document.nameAt? link.number = some own)
    (h : document.IsFieldWay entries below) :
    document.wayField? (link :: below) =
      (document.wayField? below).map fun entry => (own ++ "." ++ entry.1, entry.2) := by
  have hname : document.wayName (link :: below) = own ++ "." ++ document.wayName below := by
    rw [wayName, wayNames_cons hown, String.intercalate_cons_of_ne_nil h.wayNames_ne_nil, wayName]
  obtain ⟨first, hfirst, -⟩ := h.starts
  obtain ⟨rest, rfl⟩ := List.head?_eq_some_iff.mp hfirst
  rw [wayField?, wayField?, hname, List.getLast?_cons_cons, Option.map_map]
  rfl

/-- References without a name are passed over. -/
theorem terminals_filter (levels : Nat) (above : Option String) (references : List Nat) :
    document.terminals levels above (references.filter document.isNamed) =
      document.terminals levels above references := by
  cases levels with
  | zero => rfl
  | succ levels =>
      induction references with
      | nil => rfl
      | cons number rest ih =>
          by_cases hnamed : document.isNamed number = true
          · rw [List.filter_cons_of_pos hnamed]
            simp only [terminals, List.flatMap_cons] at ih ⊢
            rw [ih]
          · have hnone : document.nameAt? number = none :=
              Option.eq_none_iff_forall_ne_some.mpr fun own hown =>
                hnamed (isNamed_of_nameAt? hown)
            rw [List.filter_cons_of_neg hnamed, ih]
            simp [terminals, fieldNode?_eq, hnone]

/-- The terminal fields in the order of the walk are those at the ends of its ways. -/
theorem terminals_eq (levels : Nat) (above : Option String) (entries : List Object) :
    document.terminals levels above (entries.filterMap Object.asReference?) =
      ((document.fieldWays levels entries).filterMap document.wayField?).map fun entry =>
        (qualified above entry.1, entry.2) := by
  induction levels generalizing above entries with
  | zero => rfl
  | succ levels ih =>
      rw [terminals, fieldWays, ← number_links, List.flatMap_map, List.filterMap_flatMap,
        List.map_flatMap]
      refine List.flatMap_congr fun link _ => ?_
      rw [waysThrough, fieldNode?_eq]
      cases hown : document.nameAt? link.number with
      | none => rfl
      | some own =>
          rw [Option.map_some]
          cases hkids : document.namedKidsAt link.number with
          | nil =>
              simp [wayField?_singleton hown]
          | cons kid rest =>
              have hbelow := ih (some (qualified above own)) (document.kidEntries link.number)
              rw [← terminals_filter, ← namedKidsAt, hkids] at hbelow
              dsimp only
              rw [hbelow, List.filterMap_map, List.map_filterMap, List.map_filterMap]
              refine List.filterMap_congr fun way hway => ?_
              rw [Function.comp_apply, wayField?_cons hown (mem_fieldWays_iff.mp hway).1,
                Option.map_map]
              simp only [qualified_qualified, Function.comp_def]

/-! ## Trees -/

/-- The ways from an array make up a tree of at most 33 levels, in which every field has a string
as its name and no two terminal fields have one name. -/
structure IsNamedTree (document : Document) (entries : List Object) : Prop where
  /-- No way is longer, so none leads back. -/
  shallow : ∀ way, document.IsWay entries way → way.length ≤ 33
  /-- No other way leads to the same field. -/
  apart : ∀ way other, document.IsWay entries way → document.IsWay entries other →
    way.getLast?.map Link.number = other.getLast?.map Link.number → way = other
  named : ∀ way, document.IsWay entries way →
    ∀ link ∈ way, (document.nameAt? link.number).isSome
  distinct : ∀ way other, document.IsFieldWay entries way → document.IsFieldWay entries other →
    document.wayName way = document.wayName other → way = other

/-- In a tree with distinct names neither a name nor a field occurs twice. -/
theorem IsNamedTree.entries_apart (h : document.IsNamedTree entries) {ways : List (List Link)}
    (hways : ∀ way ∈ ways, document.IsFieldWay entries way)
    (horder : ways.Pairwise fun way later => way.map Link.place < later.map Link.place) :
    (ways.filterMap document.wayField?).Pairwise fun entry later =>
      entry.1 ≠ later.1 ∧ entry.2 ≠ later.2 := by
  have hdiffer : ways.Pairwise fun way later =>
      document.IsFieldWay entries way ∧ document.IsFieldWay entries later ∧ way ≠ later := by
    refine horder.imp_of_mem fun {way later} hway hlater hlt => ⟨hways way hway,
      hways later hlater, ?_⟩
    rintro rfl
    exact List.lt_irrefl _ hlt
  refine hdiffer.filterMap _ fun way later ⟨hway, hlater, hne⟩ entry hentry entry' hentry' => ?_
  obtain ⟨last, hlast, rfl⟩ := Option.map_eq_some_iff.mp hentry
  obtain ⟨last', hlast', rfl⟩ := Option.map_eq_some_iff.mp hentry'
  refine ⟨fun hname => hne (h.distinct way later hway hlater hname), fun hnumber => hne ?_⟩
  refine h.apart way later hway.toIsWay hlater.toIsWay ?_
  rw [hlast, hlast']
  exact congrArg some hnumber

end Document

namespace Form

open Document (fieldLevels)

/-- The form of a document stands in a slot, and its dictionary lists entries as its fields. -/
structure HasFields (document : Document) (slot : FormSlot) (entries : List Object) : Prop where
  found : ∃ number entries, catalog document = .ok (number, entries) ∧
    slotOf? number entries = some slot
  listed : ∃ form, dictionary document slot = .ok form ∧
    Dictionary.array? form "Fields" = some entries

variable {document : Document} {slot : FormSlot} {entries : List Object}

theorem ofDocument_of_hasFields (h : HasFields document slot entries) :
    ofDocument document = .ok ⟨document,
      document.collect fieldLevels none (entries.filterMap Object.asReference?) [], slot⟩ := by
  obtain ⟨⟨number, catalog, hcatalog, hslot⟩, form, hform, hfields⟩ := h
  have hreferences : Dictionary.references form "Fields" =
      entries.filterMap Object.asReference? := by
    rw [Dictionary.references, hfields, Option.getD_some]
  simp only [ofDocument, hcatalog, hslot, hform, hfields, hreferences]

/-- A document whose form lists its fields can be opened, be its references shared or lead they
back. The index is filled from the ways to terminal fields of at most 33 references, in the order
of their places: each way stores the number at its end under the names along it. In a tree of at
most 33 levels, with a string for every name and no name twice, every terminal field is in the
index once, under its name. -/
theorem index_of_field_ways (h : HasFields document slot entries) :
    ∃ ways : List (List Link),
      (∀ way, way ∈ ways ↔ document.IsFieldWay entries way ∧ way.length ≤ 33) ∧
      (ways.Pairwise fun way later => way.map Link.place < later.map Link.place) ∧
      ∃ index, ofDocument document = .ok ⟨document, index, slot⟩ ∧
        index = Ordered.ofPairs (ways.filterMap document.wayField?) ∧
        (document.IsNamedTree entries → (Ordered.keys index).Nodup ∧ (Ordered.values index).Nodup ∧
          ∀ way last, document.IsWay entries way → way.getLast? = some last →
            ¬document.HasNamedKid last.number →
              (document.wayName way, last.number) ∈ index) := by
  have hmem (way : List Link) : way ∈ document.fieldWays 33 entries ↔
      document.IsFieldWay entries way ∧ way.length ≤ 33 := Document.mem_fieldWays_iff
  have horder := document.fieldWays_inOrder 33 entries
  have hindex : document.collect fieldLevels none (entries.filterMap Object.asReference?) [] =
      Ordered.ofPairs ((document.fieldWays 33 entries).filterMap document.wayField?) := by
    rw [Document.collect_eq_setAll, Document.terminals_eq]
    exact congrArg _ (List.map_id _)
  refine ⟨_, hmem, horder, _, ofDocument_of_hasFields h, hindex, fun htree => ?_⟩
  have hways (way : List Link) (hway : way ∈ document.fieldWays 33 entries) :=
    ((hmem way).mp hway).1
  have hapart := htree.entries_apart hways horder
  have hkeys : (Ordered.keys ((document.fieldWays 33 entries).filterMap
      document.wayField?)).Nodup := List.pairwise_map.mpr (hapart.imp And.left)
  rw [hindex, Ordered.ofPairs_eq_self hkeys]
  refine ⟨hkeys, List.pairwise_map.mpr (hapart.imp And.right), fun way last hway hlast hend => ?_⟩
  have hfield : document.IsFieldWay entries way := by
    refine ⟨hway, htree.named way hway, fun last' hlast' => ?_⟩
    rwa [← Option.mem_unique hlast hlast']
  refine List.mem_filterMap.mpr ⟨way, (hmem way).mpr ⟨hfield, htree.shallow way hway⟩, ?_⟩
  rw [Document.wayField?, hlast, Option.map_some]

/-- A container with a widget and a field among its kids. -/
def treeDocument : Document where
  objects := [
    (1, .dict [("AcroForm", .ref 2)]),
    (2, .dict [("Fields", .arr [.null, .ref 3])]),
    (3, .dict [("T", .bytes .literal [97]), ("Kids", .arr [.ref 4, .ref 5])]),
    (4, .dict [("Subtype", .name "Widget")]),
    (5, .dict [("T", .bytes .literal [98])])]
  trailer := [("Root", .ref 1)]

/-- The container and the field are the only ways. -/
theorem way_of_treeDocument {way : List Link} (h : treeDocument.IsWay [.null, .ref 3] way) :
    way = [⟨1, 3⟩] ∨ way = [⟨1, 3⟩, ⟨1, 5⟩] := by
  have hroots : links [.null, .ref 3] = [⟨1, 3⟩] := rfl
  have hkids : links (treeDocument.kidEntries 3) = [⟨0, 4⟩, ⟨1, 5⟩] := rfl
  have hnone : links (treeDocument.kidEntries 5) = [] := rfl
  cases way with
  | nil => exact (Document.not_isWay_nil h).elim
  | cons first below =>
      obtain ⟨hfirst, hbelow⟩ := Document.isWay_cons_iff.mp h
      rw [← mem_links, hroots] at hfirst
      obtain rfl := List.mem_singleton.mp hfirst
      obtain rfl | ⟨hbelow, next, hnext, hnamed⟩ := hbelow
      · exact .inl rfl
      · obtain ⟨rest, rfl⟩ := List.head?_eq_some_iff.mp hnext
        obtain ⟨hsecond, hrest⟩ := Document.isWay_cons_iff.mp hbelow
        rw [← mem_links, hkids] at hsecond
        rcases List.mem_pair.mp hsecond with rfl | rfl
        · -- the widget has no name
          cases hnamed
        · obtain rfl | ⟨⟨⟨third, -, hthird⟩, -⟩, -⟩ := hrest
          · exact .inr rfl
          · rw [← mem_links, hnone] at hthird
            cases hthird

/-- The index of the tree has the field under its name, and the widget is no field. -/
theorem index_of_tree_with_widget :
    ∃ index, ofDocument treeDocument = .ok ⟨treeDocument, index, .referenced 2⟩ ∧
      (Ordered.keys index).Nodup ∧ (Ordered.values index).Nodup ∧ ("a.b", 5) ∈ index := by
  have hfields : HasFields treeDocument (.referenced 2) [.null, .ref 3] :=
    ⟨⟨1, _, rfl, rfl⟩, _, rfl, rfl⟩
  have hname : treeDocument.wayName [⟨1, 3⟩, ⟨1, 5⟩] = "a.b" := by decide
  have hcontainer : treeDocument.HasNamedKid 3 :=
    ⟨5, List.mem_of_getElem? (i := 1) rfl, rfl⟩
  have hway : treeDocument.IsWay [.null, .ref 3] [⟨1, 3⟩, ⟨1, 5⟩] :=
    ⟨⟨⟨1, 3⟩, rfl, rfl⟩, List.isChain_cons_cons.mpr ⟨⟨rfl, rfl⟩, List.isChain_singleton _⟩⟩
  have honly (way : List Link) (hfield : treeDocument.IsFieldWay [.null, .ref 3] way) :
      way = [⟨1, 3⟩, ⟨1, 5⟩] := by
    obtain rfl | rfl := way_of_treeDocument hfield.toIsWay
    · exact (hfield.ends ⟨1, 3⟩ rfl hcontainer).elim
    · rfl
  have htree : treeDocument.IsNamedTree [.null, .ref 3] := by
    refine ⟨fun way hway => ?_, fun way other hway hother hlast => ?_, fun way hway => ?_,
      fun way other hway hother _ => (honly way hway).trans (honly other hother).symm⟩
    · obtain rfl | rfl := way_of_treeDocument hway <;> decide
    · obtain rfl | rfl := way_of_treeDocument hway
      · obtain rfl | rfl := way_of_treeDocument hother
        · rfl
        · cases hlast
      · obtain rfl | rfl := way_of_treeDocument hother
        · cases hlast
        · rfl
    · obtain rfl | rfl := way_of_treeDocument hway <;> decide
  obtain ⟨ways, -, -, index, hopen, -, hindex⟩ := index_of_field_ways hfields
  obtain ⟨hkeys, hvalues, hmem⟩ := hindex htree
  refine ⟨index, hopen, hkeys, hvalues, ?_⟩
  rw [← hname]
  refine hmem _ ⟨1, 5⟩ hway rfl ?_
  rintro ⟨kid, hkid, -⟩
  cases hkid

/-- A container that is one of its own kids, in front of a field. -/
def loopDocument : Document where
  objects := [
    (1, .dict [("AcroForm", .ref 2)]),
    (2, .dict [("Fields", .arr [.ref 3])]),
    (3, .dict [("T", .bytes .literal [97]), ("Kids", .arr [.ref 3, .ref 4])]),
    (4, .dict [("T", .bytes .literal [98])])]
  trailer := [("Root", .ref 1)]

-- The field is reached behind one to thirty-two turns.
example : (ofDocument loopDocument).toOption.map (fun form => form.fields.length) = some 32 := by
  decide +kernel

end Form

end Stepwise.Pdf
