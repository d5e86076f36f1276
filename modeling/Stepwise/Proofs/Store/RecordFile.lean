import Stepwise.Proofs.Files.Path
import Stepwise.Proofs.Files.Tree
import Stepwise.Proofs.Json.ReadBack
import Stepwise.Proofs.RecordTable
import Stepwise.Proofs.Store.RecordDocument
import Stepwise.Proofs.Written.Pool

/-!
# The content of a record file

Records that are durable survive being written to a file and read from it again. A file is in its
place when it stands in a folder, and so does its draft, under another name. New content that is put
in the place of the file is the content from then on, the draft is gone, everything else stays, and
the file is in its place as before.
-/

namespace Stepwise

/-! ## Records that survive being written -/

/-- A value that is read again when it is printed inside a record in a file: its numbers read back,
and there is room for the containers around it. -/
structure Json.Readable (v : Json) : Prop where
  numbers : ∀ k ∈ v.numbers, k.ReadsBack
  depth : v.depth + 3 ≤ Fragment.maxDepth

theorem Json.readable_null : null.Readable := by
  constructor
  · simp [numbers]
  · decide

theorem Json.readable_str (s : String) : (str s).Readable := by
  constructor
  · simp [numbers]
  · exact Nat.le_of_ble_eq_true rfl

theorem Json.readable_int {n : Int} (hlow : -Int.ofNat (Nat.pow 2 63) ≤ n)
    (hhigh : n < Int.ofNat (Nat.pow 2 64)) : (num (.int n)).Readable := by
  constructor
  · simpa [numbers] using Number.readsBack_int hlow hhigh
  · exact Nat.le_of_ble_eq_true rfl

/-- A record that survives being written to a file. -/
structure Variable.Durable (r : Variable) : Prop where
  isNormal : r.toJson.IsNormal
  readable : ∀ m ∈ r.data, m.2.Readable

namespace Json

theorem numbersItems_eq_flatMap (items : List Json) : numbersItems items = items.flatMap numbers := by
  induction items with
  | nil => rfl
  | cons v rest ih => rw [numbersItems, ih, List.flatMap_cons]

theorem numbersMembers_eq_flatMap (members : List (String × Json)) :
    numbersMembers members = members.flatMap fun m => m.2.numbers := by
  induction members with
  | nil => rfl
  | cons m rest ih => rw [numbersMembers, ih, List.flatMap_cons]

end Json

namespace Variable

variable {r : Variable}

theorem Durable.numbers (h : r.Durable) : ∀ k ∈ r.toJson.numbers, k.ReadsBack := by
  intro k hk
  have hdata : k ∈ r.data.flatMap fun m => m.2.numbers := by
    simpa [toJson, Json.numbers, Json.numbersMembers, Json.numbersMembers_eq_flatMap] using hk
  obtain ⟨m, hm, hk⟩ := List.mem_flatMap.mp hdata
  exact (h.readable m hm).numbers k hk

theorem Durable.depth (h : r.Durable) : r.toJson.depth < Fragment.maxDepth := by
  have hdata : Json.depthMembers r.data + 3 ≤ Fragment.maxDepth := by
    have hvalues : Json.depthMembers r.data ≤ Fragment.maxDepth - 3 := by
      apply Json.depthMembers_le_iff.mpr
      intro m hm
      have := (h.readable m hm).depth
      omega
    have hmax : 3 ≤ Fragment.maxDepth := by decide
    omega
  simp only [toJson, Json.depth, Json.depthMembers]
  omega

/-- Setting fields to readable values keeps a record durable. -/
theorem Durable.withFields (h : r.Durable) {assigned : List (String × Json)}
    (ha : ∀ a ∈ assigned, a.2.IsNormal ∧ a.2.Readable) : (r.withFields assigned).Durable where
  isNormal := isNormal_withFields h.isNormal fun a hmem => (ha a hmem).1
  readable := Ordered.forall_mem_setAll h.readable fun a hmem => (ha a hmem).2

end Variable

namespace RecordFile

theorem not_isBlankText_toText (records : List Variable) :
    Text.isBlankText (toText records) = false := by
  cases records with
  | nil => rfl
  | cons r rest =>
      have htext : ∃ cs, (toText (r :: rest)).toList = '[' :: cs := by
        simp [toText, Json.pretty, Json.prettyAt]
      obtain ⟨cs, hcs⟩ := htext
      simp [Text.isBlankText, hcs, Text.isBlank]

/-- Durable records are read again from the text that is written for them. -/
theorem ofText_toText (path : String) {records : List Variable}
    (h : ∀ r ∈ records, r.Durable) : ofText path (toText records) = .ok records := by
  have hdepth : (Json.arr (records.map Variable.toJson)).depth ≤ Fragment.maxDepth := by
    have hitems : ∀ v ∈ records.map Variable.toJson, v.depth ≤ Fragment.maxDepth - 1 :=
      List.forall_mem_map.mpr fun r hr => Nat.le_sub_one_of_lt (h r hr).depth
    have hlist := Json.depthItems_le_iff.mpr hitems
    have hmax : 1 ≤ Fragment.maxDepth := by decide
    rw [Json.depth]
    omega
  have hnumbers : ∀ k ∈ (Json.arr (records.map Variable.toJson)).numbers, k.ReadsBack := by
    intro k hk
    rw [Json.numbers, Json.numbersItems_eq_flatMap, List.flatMap_map] at hk
    obtain ⟨r, hr, hk⟩ := List.mem_flatMap.mp hk
    exact (h r hr).numbers k hk
  have hmeant : List.Forall₂ Variable.MeantBy
      (records.map fun r => Fragment.ofJson r.toJson) records :=
    List.forall₂_map_left_iff.mpr (List.forall₂_same.mpr fun r hr =>
      Variable.meantBy_toJson (h r hr).isNormal)
  have hitems : Fragment.ofItems (records.map Variable.toJson) =
      records.map fun r => Fragment.ofJson r.toJson := by
    rw [Fragment.ofItems_eq_map, List.map_map]
    rfl
  exact ofText_eq_ok_iff.mpr (.inr ⟨not_isBlankText_toText records,
    _, Fragment.ofText_pretty hdepth hnumbers, _, hitems ▸ rfl, hmeant⟩)

/-- The names in the records that are read from a file are distinct. -/
theorem isNormal_of_read {files : FileTree} {path : String} {records : List Variable}
    (h : RecordFile.read files path = .ok records) : ∀ r ∈ records, r.toJson.IsNormal := by
  have hnone : ∀ r ∈ ([] : List Variable), r.toJson.IsNormal := by simp
  rw [RecordFile.read] at h
  split at h
  · obtain ⟨-, rfl⟩ | ⟨-, hsaid⟩ := ofText_eq_ok_iff.mp h
    · exact hnone
    · exact isNormal_of_saidBy hsaid
  · obtain rfl := Except.ok.inj h
    exact hnone
  · cases h

/-! ## The file in its place -/

/-- The file of records stands at some names and its draft at others in the same folder, with nothing
below the draft. -/
structure Placed (files : FileTree) (path : String) (names draft : List String) : Prop where
  located : files.locate path = .ok names
  drafted : files.locate (draftPath path) = .ok draft
  folder : files.node? names.dropLast = some .folder
  beside : draft.dropLast = names.dropLast
  apart : names ≠ draft
  file : ∃ content, files.node? names = some (.file content)
  free : files.node? draft ≠ some .folder
  bare : files.Bare draft
  inside : FileTree.isAbove draft = false
  slash : Path.endsWithSlash path = false
  draftSlash : Path.endsWithSlash (draftPath path) = false

namespace Placed

variable {files : FileTree} {path : String} {names draft : List String}

/-- A path of two that stand beside each other is not below the other one. -/
theorem not_below (h : Placed files path names draft) : ¬draft <+: names := by
  intro hbelow
  have hfolder := FileTree.prefix_dropLast hbelow (Ne.symm h.apart)
  rw [← h.beside] at hfolder
  have hlength := hfolder.length_le
  have hne : draft ≠ [] := by
    rintro rfl
    cases h.inside
  have hpos := List.length_pos_iff.mpr hne
  rw [List.length_dropLast] at hlength
  omega

/-- Trees that agree on everything but the content of the file and the draft. -/
theorem of_agree (h : Placed files path names draft) {files' : FileTree}
    (hfile : ∃ content, files'.node? names = some (.file content))
    (hfree : files'.node? draft ≠ some .folder) (hbare : files'.Bare draft)
    (hother : ∀ other, other ≠ names → other ≠ draft → files'.node? other = files.node? other) :
    Placed files' path names draft := by
  have hfolders : ∀ other, files.node? other = some .folder → files'.node? other = some .folder := by
    intro other hnode
    rw [hother other, hnode]
    · rintro rfl
      obtain ⟨content, hcontent⟩ := h.file
      rw [hcontent] at hnode
      cases hnode
    · rintro rfl
      exact h.free hnode
  exact { h with
    located := FileTree.locate_mono hfolders h.located
    drafted := FileTree.locate_mono hfolders h.drafted
    folder := hfolders _ h.folder
    file := hfile
    free := hfree
    bare := hbare }

/-! ## New content -/

theorem folder_ne_none (h : Placed files path names draft) :
    files.node? names.dropLast ≠ none ∧ files.node? draft.dropLast ≠ none := by
  rw [h.beside, h.folder]
  simp

theorem write_file (h : Placed files path names draft) (content : FileContent) :
    files.write path content = .ok (files.put names (.file content)) := by
  obtain ⟨old, hold⟩ := h.file
  simp [FileTree.write, h.located, h.slash, h.folder, hold]

theorem write_draft (h : Placed files path names draft) (content : FileContent) :
    files.write (draftPath path) content = .ok (files.put draft (.file content)) := by
  simp only [FileTree.write, h.drafted, h.draftSlash, Bool.false_eq_true, if_false, h.beside,
    h.folder]
  cases hnode : files.node? draft with
  | none => rfl
  | some node =>
      cases node with
      | file old => rfl
      | folder => exact absurd hnode h.free

theorem readText (h : Placed files path names draft) {text : String}
    (hfile : files.node? names = some (.file (.text text))) : files.readText path = .ok text := by
  simp [FileTree.readText, FileTree.read, FileTree.find, h.located, hfile, h.slash,
    FileContent.text?]

theorem remove_draft (h : Placed files path names draft) {content : FileContent}
    (hfile : files.node? draft = some (.file content)) :
    files.remove? (draftPath path) = some (files.erase draft) := by
  simp [FileTree.remove?, FileTree.read, FileTree.find, h.drafted, hfile, h.draftSlash]

theorem put_draft (h : Placed files path names draft) (content : FileContent) :
    Placed (files.put draft (.file content)) path names draft ∧
      ∀ other, other ≠ draft →
        (files.put draft (.file content)).node? other = files.node? other := by
  have hother : ∀ other, other ≠ draft →
      (files.put draft (.file content)).node? other = files.node? other := fun other hne =>
    FileTree.node?_put_of_ne h.folder_ne_none.2 hne
  refine ⟨h.of_agree ?_ ?_ (h.bare.put (Or.inr rfl) _) fun other _ hne => hother other hne, hother⟩
  · rw [hother names h.apart]
    exact h.file
  · rw [FileTree.node?_put_self]
    simp

theorem put_file (h : Placed files path names draft) (content : FileContent) :
    Placed (files.put names (.file content)) path names draft ∧
      ∀ other, other ≠ names →
        (files.put names (.file content)).node? other = files.node? other := by
  have hother : ∀ other, other ≠ names →
      (files.put names (.file content)).node? other = files.node? other := fun other hne =>
    FileTree.node?_put_of_ne h.folder_ne_none.1 hne
  refine ⟨h.of_agree ?_ ?_ (h.bare.put (Or.inl h.not_below) _) fun other hne _ => hother other hne,
    hother⟩
  · exact ⟨content, FileTree.node?_put_self _ _ _⟩
  · rw [hother draft (Ne.symm h.apart)]
    exact h.free

theorem erase_draft (h : Placed files path names draft) {content : FileContent}
    (hfile : files.node? draft = some (.file content)) :
    Placed (files.erase draft) path names draft ∧
      ∀ other, other ≠ draft → (files.erase draft).node? other = files.node? other := by
  have hlisted : ∃ slot ∈ files, slot.1 = draft := ⟨_, FileTree.mem_of_node?_eq_file hfile, rfl⟩
  have hother : ∀ other, other ≠ draft → (files.erase draft).node? other = files.node? other :=
    fun other hne => FileTree.node?_erase_of_ne hlisted hne
  have hgone := FileTree.node?_erase_self h.bare h.inside
  refine ⟨h.of_agree ?_ ?_ ?_ fun other _ hne => hother other hne, hother⟩
  · rw [hother names h.apart]
    exact h.file
  · rw [hgone]
    simp
  · intro slot hslot hbelow
    exact absurd hbelow ((FileTree.node?_eq_none_iff.mp hgone).2 slot hslot)

/-- New content takes the place of the old one, the draft is gone, and all else stays. -/
theorem replaceContent (h : Placed files path names draft) (text : String) :
    ∃ written, RecordFile.replaceContent files path text = .ok written ∧
      Placed written path names draft ∧ written.readText path = .ok text ∧
      ∀ other, other ≠ names → other ≠ draft → written.node? other = files.node? other := by
  obtain ⟨hdrafted, hfirst⟩ := h.put_draft (.text text)
  obtain ⟨hwritten, hsecond⟩ := hdrafted.put_file (.text text)
  have hdraft : ((files.put draft (.file (.text text))).put names (.file (.text text))).node? draft =
      some (.file (.text text)) := by
    rw [hsecond draft (Ne.symm h.apart), FileTree.node?_put_self]
  obtain ⟨herased, hthird⟩ := hwritten.erase_draft hdraft
  refine ⟨_, ?_, herased, herased.readText ?_, ?_⟩
  · rw [RecordFile.replaceContent, h.write_draft]
    simp only [hdrafted.write_file, hwritten.remove_draft hdraft, Option.getD_some]
  · rw [hthird names h.apart, FileTree.node?_put_self]
  · intro other hnames hne
    rw [hthird other hne, hsecond other hnames, hfirst other hne]

end Placed

/-! ## Where a file is in its place -/

theorem exists_of_readText {files : FileTree} {path text : String}
    (h : files.readText path = .ok text) :
    ∃ names content, files.locate path = .ok names ∧
      files.node? names = some (.file content) ∧ Path.endsWithSlash path = false := by
  rw [FileTree.readText, FileTree.read, FileTree.find] at h
  cases hlocate : files.locate path with
  | error e => simp [hlocate] at h
  | ok names =>
      cases hnode : files.node? names with
      | none => simp [hlocate, hnode] at h
      | some node =>
          cases node with
          | folder => simp [hlocate, hnode] at h
          | file content =>
              refine ⟨names, content, rfl, hnode, Bool.eq_false_iff.mpr fun hslash => ?_⟩
              simp [hlocate, hnode, hslash] at h

theorem exists_of_write {files written : FileTree} {path : String} {content : FileContent}
    (h : files.write path content = .ok written) :
    ∃ names, files.locate path = .ok names ∧ Path.endsWithSlash path = false ∧
      files.node? names.dropLast = some .folder ∧ files.node? names ≠ some .folder := by
  rw [FileTree.write] at h
  cases hlocate : files.locate path with
  | error e => simp [hlocate] at h
  | ok names =>
      simp only [hlocate] at h
      refine ⟨names, rfl, ?_⟩
      split at h
      · cases h
      · next hslash =>
        split at h
        · cases h
        · cases h
        · cases h
        · next hfolder hnode =>
          exact ⟨Bool.eq_false_iff.mpr hslash, hfolder, hnode⟩

/-- In a sound tree a file whose content can be read and replaced is in its place. -/
theorem exists_placed {files written : FileTree} {path text new : String} (hsound : files.Sound)
    (hread : files.readText path = .ok text)
    (hwrite : replaceContent files path new = .ok written) :
    ∃ names draft, Placed files path names draft := by
  obtain ⟨names, content, hlocate, hfile, hslash⟩ := exists_of_readText hread
  obtain ⟨drafted, hdrafted⟩ : ∃ drafted, files.write (draftPath path) (.text new) = .ok drafted := by
    rw [replaceContent] at hwrite
    split at hwrite
    · cases hwrite
    · next drafted hdrafted => exact ⟨drafted, hdrafted⟩
  obtain ⟨draft, hdraft, hdraftSlash, hfolder, hfree⟩ := exists_of_write hdrafted
  have hlisted := FileTree.mem_of_node?_eq_file hfile
  obtain ⟨hwalk, habsolutePath⟩ := FileTree.walk_of_locate hlocate
  obtain ⟨hdraftWalk, -⟩ := FileTree.walk_of_locate hdraft
  rcases List.eq_nil_or_concat' (Path.parts path) with hnone | ⟨front, last, hparts⟩
  · -- a path without parts leads to the current folder
    have hrelative : ¬Path.isAbsolute path = true := fun habsolute =>
      habsolutePath habsolute (by rw [Path.names, hnone]; rfl)
    rw [hnone, if_neg hrelative] at hwalk
    obtain rfl : [] = names := Except.ok.inj hwalk
    cases hsound.inside [] content hlisted
  · rw [hparts] at hwalk
    obtain ⟨folder, hfront, hlast⟩ := FileTree.walk_concat hwalk
    obtain ⟨hdot, hup⟩ := hsound.walk_file hlast hfile
    obtain ⟨hnames, -⟩ := FileTree.walk_last hdot hup hlast
    obtain ⟨hdraftParts, habsolute⟩ := Path.parts_draftPath hparts hslash hdot hup
    rw [hdraftParts, habsolute] at hdraftWalk
    obtain ⟨folder', hfront', hdraftLast⟩ := FileTree.walk_concat hdraftWalk
    obtain rfl : folder = folder' := Except.ok.inj (hfront.symm.trans hfront')
    have hlong := Path.length_draftName last
    have hdraftDot : Path.draftName last ≠ "." := by
      intro heq
      rw [heq] at hlong
      exact absurd hlong (by decide)
    have hdraftUp : Path.draftName last ≠ ".." := by
      intro heq
      rw [heq] at hlong
      exact absurd hlong (by decide)
    obtain ⟨hdraftNames, hfolder'⟩ := FileTree.walk_last hdraftDot hdraftUp hdraftLast
    refine ⟨names, draft, ?_⟩
    exact {
      located := hlocate
      drafted := hdraft
      folder := by rw [hnames, List.dropLast_concat, hfolder']
      beside := by rw [hnames, hdraftNames, List.dropLast_concat, List.dropLast_concat]
      apart := by
        rw [hnames, hdraftNames]
        intro heq
        exact Path.draftName_ne last (by simpa using heq.symm)
      file := ⟨content, hfile⟩
      free := hfree
      bare := by
        cases hnode : files.node? draft with
        | none =>
            intro slot hslot hbelow
            exact absurd hbelow ((FileTree.node?_eq_none_iff.mp hnode).2 slot hslot)
        | some node =>
            cases node with
            | folder => exact absurd hnode hfree
            | file old => exact hsound.leaves draft old (FileTree.mem_of_node?_eq_file hnode)
      inside := by
        rw [hdraftNames, FileTree.isAbove, List.all_append]
        simp [hdraftUp]
      slash := hslash
      draftSlash := hdraftSlash }

end RecordFile

end Stepwise
