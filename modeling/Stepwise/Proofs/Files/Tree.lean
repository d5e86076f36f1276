import Mathlib.Data.List.Infix
import Stepwise.Files.Tree

/-!
# Laws of file trees

What stands under some names after a file is put in or taken out: the file itself changes, and all
other files and folders stay, also the folders that are there only because something is below them.
A path that leads through folders leads to the same names as long as these stay folders.
-/

namespace Stepwise.FileTree

variable {tree tree' : FileTree} {names other : List String} {node : FileNode}

/-! ## What stands under names -/

/-- Something stands under names exactly if they lead to the current folder or above it, or to or
towards something that is listed. -/
theorem node?_eq_none_iff :
    node? tree names = none ↔ isAbove names = false ∧ ∀ slot ∈ tree, ¬names <+: slot.1 := by
  unfold node?
  cases hlookup : List.lookup names tree with
  | none => simp
  | some found =>
      have hmem : (names, found) ∈ tree := by
        obtain ⟨before, after, htree, -⟩ := List.lookup_eq_some_iff.mp hlookup
        rw [htree]
        simp
      simp only [reduceCtorEq, false_iff, not_and, not_forall, not_not]
      exact fun _ => ⟨(names, found), hmem, List.prefix_rfl⟩

/-- A file is listed under its names. -/
theorem node?_eq_file_iff {content : FileContent} :
    node? tree names = some (.file content) ↔
      List.lookup names tree = some (.file content) := by
  unfold node?
  cases List.lookup names tree with
  | none => simp
  | some found => simp

theorem mem_of_node?_eq_file {content : FileContent}
    (h : node? tree names = some (.file content)) : (names, .file content) ∈ tree := by
  obtain ⟨before, after, htree, -⟩ := List.lookup_eq_some_iff.mp (node?_eq_file_iff.mp h)
  rw [htree]
  simp

/-- Trees that agree on the files under names, and on whether there is anything, agree there. -/
theorem node?_congr
    (hfile : ∀ content, List.lookup names tree = some (.file content) ↔
      List.lookup names tree' = some (.file content))
    (hnone : node? tree names = none ↔ node? tree' names = none) :
    node? tree names = node? tree' names := by
  simp only [← node?_eq_file_iff] at hfile
  cases hnode : node? tree names with
  | none => exact (hnone.mp hnode).symm
  | some found =>
      cases found with
      | file content => exact ((hfile content).mp hnode).symm
      | folder =>
          cases hnode' : node? tree' names with
          | none => rw [hnone.mpr hnode'] at hnode; cases hnode
          | some found' =>
              cases found' with
              | file content => rw [(hfile content).mpr hnode'] at hnode; cases hnode
              | folder => rfl

/-- Whatever leads to something that is there is there. -/
theorem node?_ne_none_of_prefix (hbelow : other <+: names) (h : node? tree names ≠ none) :
    node? tree other ≠ none := by
  intro hother
  obtain ⟨habove, hslots⟩ := node?_eq_none_iff.mp hother
  apply h
  apply node?_eq_none_iff.mpr
  constructor
  · apply Bool.eq_false_iff.mpr
    intro hnames
    have hall : isAbove other = true := by
      simp only [isAbove, List.all_eq_true] at hnames ⊢
      exact fun name hname => hnames name (hbelow.subset hname)
    rw [hall] at habove
    cases habove
  · intro slot hslot hle
    exact hslots slot hslot (hbelow.trans hle)

/-- What leads to names, and not just to them, leads to the folder they are in. -/
theorem prefix_dropLast (hbelow : other <+: names) (hne : other ≠ names) :
    other <+: names.dropLast := by
  rcases List.eq_nil_or_concat' names with rfl | ⟨front, last, rfl⟩
  · exact absurd (List.prefix_nil.mp hbelow) hne
  · rw [List.dropLast_concat]
    exact (List.prefix_concat_iff.mp hbelow).resolve_left hne

/-! ## Putting a file in -/

theorem lookup_put (tree : FileTree) (names other : List String) (node : FileNode) :
    List.lookup other (put tree names node) =
      if other = names then some node else List.lookup other tree := by
  induction tree with
  | nil =>
      by_cases h : other = names
      · simp [put, h]
      · simp [put, List.lookup_cons, beq_false_of_ne h, h]
  | cons slot rest ih =>
      obtain ⟨known, old⟩ := slot
      by_cases hknown : known = names
      · subst hknown
        by_cases h : other = known
        · simp [put, h]
        · simp [put, List.lookup_cons, beq_false_of_ne h, h]
      · rw [put, if_neg hknown, List.lookup_cons, List.lookup_cons, ih]
        by_cases h : other = known
        · subst h
          simp [hknown]
        · rw [beq_false_of_ne h]

theorem node?_put_self (tree : FileTree) (names : List String) (node : FileNode) :
    node? (put tree names node) names = some node := by
  rw [node?, lookup_put, if_pos rfl]

theorem mem_put_fst (tree : FileTree) (names : List String) (node : FileNode)
    (known : List String) :
    (∃ slot ∈ put tree names node, slot.1 = known) ↔
      known = names ∨ ∃ slot ∈ tree, slot.1 = known := by
  induction tree with
  | nil => simp [put, eq_comm]
  | cons slot rest ih =>
      obtain ⟨first, old⟩ := slot
      by_cases h : first = names
      · subst h
        simp [put, eq_comm]
      · simp only [put, if_neg h, List.exists_mem_cons_iff, ih]
        tauto

theorem mem_of_mem_put {slot : List String × FileNode} (h : slot ∈ put tree names node) :
    slot.1 = names ∨ slot ∈ tree := by
  induction tree with
  | nil =>
      obtain rfl := List.mem_singleton.mp h
      exact Or.inl rfl
  | cons first rest ih =>
      obtain ⟨known, old⟩ := first
      by_cases hknown : known = names
      · rw [put, if_pos hknown] at h
        rcases List.mem_cons.mp h with rfl | hrest
        · exact Or.inl rfl
        · exact Or.inr (List.mem_cons_of_mem _ hrest)
      · rw [put, if_neg hknown] at h
        rcases List.mem_cons.mp h with rfl | hrest
        · exact Or.inr List.mem_cons_self
        · exact (ih hrest).imp_right (List.mem_cons_of_mem _)

/-- Besides a file that is put into a folder everything stays. -/
theorem node?_put_of_ne (hfolder : node? tree names.dropLast ≠ none) (hne : other ≠ names) :
    node? (put tree names node) other = node? tree other := by
  apply node?_congr
  · intro content
    rw [lookup_put, if_neg hne]
  · rw [node?_eq_none_iff, node?_eq_none_iff]
    refine and_congr_right fun habove => ⟨fun h slot hslot hbelow => ?_, fun h slot hslot => ?_⟩
    · obtain ⟨slot', hslot', hsame⟩ := (mem_put_fst tree names node slot.1).mpr
        (Or.inr ⟨slot, hslot, rfl⟩)
      exact h slot' hslot' (hsame ▸ hbelow)
    · intro hbelow
      rcases mem_of_mem_put hslot with hnames | hold
      · -- what leads to the file leads to its folder, which is there
        rw [hnames] at hbelow
        have hthere := node?_ne_none_of_prefix (prefix_dropLast hbelow hne) hfolder
        exact hthere (node?_eq_none_iff.mpr ⟨habove, h⟩)
      · exact h slot hold hbelow

/-! ## Taking a file out -/

/-- Nothing is listed below the names. -/
def Bare (tree : FileTree) (names : List String) : Prop :=
  ∀ slot ∈ tree, names <+: slot.1 → slot.1 = names

theorem Bare.put (h : tree.Bare names) (hout : ¬names <+: other ∨ other = names)
    (node : FileNode) : Bare (put tree other node) names := by
  intro slot hslot hbelow
  rcases mem_of_mem_put hslot with hnames | hold
  · rw [hnames] at hbelow ⊢
    exact hout.resolve_left (not_not_intro hbelow)
  · exact h slot hold hbelow

theorem mem_of_mem_erase {slot : List String × FileNode} (h : slot ∈ erase tree names) :
    (slot ∈ tree ∧ slot.1 ≠ names) ∨ slot = (names.dropLast, .folder) := by
  simp only [erase] at h
  split at h
  · exact Or.inl (by simpa using h)
  · rcases List.mem_append.mp h with hkept | hfolder
    · exact Or.inl (by simpa using hkept)
    · exact Or.inr (List.mem_singleton.mp hfolder)

theorem mem_erase_of_mem {slot : List String × FileNode} (h : slot ∈ tree) (hne : slot.1 ≠ names) :
    slot ∈ erase tree names := by
  have hkept : slot ∈ tree.filter fun slot => slot.1 != names := by simp [h, hne]
  simp only [erase]
  split
  · exact hkept
  · exact List.mem_append_left _ hkept

/-- The folder that a file was taken out of is still there. -/
theorem node?_erase_dropLast (tree : FileTree) (names : List String) :
    node? (erase tree names) names.dropLast ≠ none := by
  simp only [erase]
  split
  · next hsome => exact Option.isSome_iff_ne_none.mp hsome
  · intro hnone
    exact (node?_eq_none_iff.mp hnone).2 (names.dropLast, .folder) (by simp) List.prefix_rfl

theorem lookup_filter_ne (hne : other ≠ names) :
    List.lookup other (tree.filter fun slot => slot.1 != names) = List.lookup other tree := by
  induction tree with
  | nil => rfl
  | cons slot rest ih =>
      obtain ⟨known, old⟩ := slot
      by_cases hknown : known = names
      · subst hknown
        simp [List.lookup_cons, beq_false_of_ne hne, ih]
      · simp [List.lookup_cons, hknown, ih]

theorem lookup_erase (hne : other ≠ names) (content : FileContent) :
    List.lookup other (erase tree names) = some (.file content) ↔
      List.lookup other tree = some (.file content) := by
  simp only [erase]
  split
  · rw [lookup_filter_ne hne]
  · -- a folder that is listed anew is no file
    rw [List.lookup_append, lookup_filter_ne hne]
    cases List.lookup other tree with
    | some node => simp
    | none =>
        by_cases hfolder : other = names.dropLast
        · simp [hfolder]
        · simp [List.lookup_cons, beq_false_of_ne hfolder]

/-- Besides a file that is taken out everything stays. -/
theorem node?_erase_of_ne (hlisted : ∃ slot ∈ tree, slot.1 = names) (hne : other ≠ names) :
    node? (erase tree names) other = node? tree other := by
  apply node?_congr
  · exact fun content => lookup_erase hne content
  · rw [node?_eq_none_iff, node?_eq_none_iff]
    refine and_congr_right fun habove => ⟨fun h slot hslot hbelow => ?_, fun h slot hslot => ?_⟩
    · by_cases hnames : slot.1 = names
      · rw [hnames] at hbelow
        have hthere := node?_ne_none_of_prefix (prefix_dropLast hbelow hne)
          (node?_erase_dropLast tree names)
        exact hthere (node?_eq_none_iff.mpr ⟨habove, h⟩)
      · exact h slot (mem_erase_of_mem hslot hnames) hbelow
    · intro hbelow
      rcases mem_of_mem_erase hslot with ⟨hold, -⟩ | rfl
      · exact h slot hold hbelow
      · obtain ⟨listed, hmem, hlisted⟩ := hlisted
        exact h listed hmem (hlisted ▸ hbelow.trans (List.dropLast_prefix names))

/-- Nothing is left where a file was taken out. -/
theorem node?_erase_self (hbare : tree.Bare names) (habove : isAbove names = false) :
    node? (erase tree names) names = none := by
  apply node?_eq_none_iff.mpr
  refine ⟨habove, fun slot hslot hbelow => ?_⟩
  rcases mem_of_mem_erase hslot with ⟨hold, hne⟩ | rfl
  · exact hne (hbare slot hold hbelow)
  · have hlength := hbelow.length_le
    have hpos : names ≠ [] := by
      rintro rfl
      cases habove
    rw [List.length_dropLast] at hlength
    have := List.length_pos_iff.mpr hpos
    omega

/-! ## Paths -/

/-- A path leads to the same names as long as the folders on the way stay folders. -/
theorem walk_mono (h : ∀ names, node? tree names = some .folder → node? tree' names = some .folder)
    {reached : List String} {parts : List String} (hwalk : walk tree reached parts = .ok names) :
    walk tree' reached parts = .ok names := by
  induction parts generalizing reached with
  | nil => exact hwalk
  | cons part rest ih =>
      rw [walk] at hwalk ⊢
      cases hnode : node? tree reached with
      | none => simp [hnode] at hwalk
      | some node =>
          cases node with
          | file content => simp [hnode] at hwalk
          | folder =>
              simp only [hnode, h reached hnode] at hwalk ⊢
              split_ifs at hwalk ⊢ with hdot hup husable
              · exact ih hwalk
              · exact ih hwalk
              · exact ih hwalk

theorem locate_mono
    (h : ∀ names, node? tree names = some .folder → node? tree' names = some .folder)
    {path : String} (hlocate : tree.locate path = .ok names) : tree'.locate path = .ok names := by
  unfold locate at hlocate ⊢
  split_ifs at hlocate ⊢ with hempty habsolute hnone
  · exact walk_mono h hlocate
  · exact walk_mono h hlocate

theorem walk_of_locate {path : String} (hlocate : tree.locate path = .ok names) :
    walk tree (if Path.isAbsolute path then rootNames else []) (Path.parts path) = .ok names ∧
      (Path.isAbsolute path = true → Path.names path ≠ []) := by
  rw [locate] at hlocate
  by_cases hempty : (path == "") = true
  · rw [if_pos hempty] at hlocate
    cases hlocate
  · rw [if_neg hempty] at hlocate
    by_cases habsolute : Path.isAbsolute path = true
    · rw [if_pos habsolute] at hlocate ⊢
      by_cases hnone : (Path.names path).isEmpty = true
      · rw [if_pos hnone] at hlocate
        cases hlocate
      · rw [if_neg hnone] at hlocate
        exact ⟨hlocate, fun _ hnil => hnone (by rw [hnil]; rfl)⟩
    · rw [if_neg habsolute] at hlocate ⊢
      exact ⟨hlocate, fun habsolute' => absurd habsolute' habsolute⟩

/-- The last part of a path is followed from where the others lead. -/
theorem walk_concat {reached front : List String} {last : String}
    (hwalk : walk tree reached (front ++ [last]) = .ok names) :
    ∃ folder, walk tree reached front = .ok folder ∧ walk tree folder [last] = .ok names := by
  induction front generalizing reached with
  | nil => exact ⟨reached, rfl, hwalk⟩
  | cons part rest ih =>
      rw [List.cons_append, walk] at hwalk
      rw [walk]
      cases hnode : node? tree reached with
      | none => simp [hnode] at hwalk
      | some node =>
          cases node with
          | file content => simp [hnode] at hwalk
          | folder =>
              simp only [hnode] at hwalk ⊢
              split_ifs at hwalk ⊢ with hdot hup husable
              · exact ih hwalk
              · exact ih hwalk
              · exact ih hwalk

/-- What a last part that is a name leads to stands in the folder under this name. -/
theorem walk_last {folder : List String} {last : String} (hdot : last ≠ ".") (hup : last ≠ "..")
    (hwalk : walk tree folder [last] = .ok names) :
    names = folder ++ [last] ∧ node? tree folder = some .folder := by
  rw [walk] at hwalk
  cases hnode : node? tree folder with
  | none => simp [hnode] at hwalk
  | some node =>
      cases node with
      | file content => simp [hnode] at hwalk
      | folder =>
          simp only [hnode, beq_iff_eq, hdot, hup, if_false] at hwalk
          split_ifs at hwalk with husable
          exact ⟨(Except.ok.inj hwalk).symm, rfl⟩

/-! ## Folders -/

theorem nodup_eraseDups {α : Type} [BEq α] [LawfulBEq α] : ∀ l : List α, l.eraseDups.Nodup
  | [] => List.nodup_nil
  | a :: rest => by
      rw [List.eraseDups_cons, List.nodup_cons, List.mem_eraseDups]
      exact ⟨by simp, nodup_eraseDups _⟩
  termination_by l => l.length
  decreasing_by exact Nat.lt_succ_of_le (List.length_filter_le _ _)

/-- What is not a file is a folder, whose names are listed once each, or cannot be listed. -/
theorem list_cases {path : String} (h : ∀ content, tree.find path ≠ .ok (.file content)) :
    (tree.has path = true ∧ ∃ names, tree.list path = .ok names ∧ names.Nodup) ∨
      (tree.has path = false ∧ ∃ e, tree.list path = .error e) := by
  unfold has list
  cases hlocate : locate tree path with
  | error e => exact .inr ⟨by simp [find, hlocate], e, rfl⟩
  | ok names =>
      cases hnode : node? tree names with
      | none => exact .inr ⟨by simp [find, hlocate, hnode], .missing, by simp [hnode]⟩
      | some node =>
          cases node with
          | file content =>
              refine .inr ⟨?_, .unusable, by simp [hnode]⟩
              have hfile := h content
              simp only [find, hlocate, hnode] at hfile ⊢
              split_ifs at hfile ⊢ <;> simp_all
          | folder =>
              exact .inl ⟨by simp [find, hlocate, hnode], entries tree names, by simp [hnode],
                nodup_eraseDups _⟩

/-! ## Trees in another order -/

theorem lookup_perm (h : tree.Perm tree') (hn : (tree.map Prod.fst).Nodup) (names : List String) :
    List.lookup names tree = List.lookup names tree' := by
  induction h with
  | nil => rfl
  | cons slot _ ih =>
      obtain ⟨known, node⟩ := slot
      rw [List.lookup_cons, List.lookup_cons, ih (List.nodup_cons.mp hn).2]
  | swap slot slot' rest =>
      obtain ⟨known, node⟩ := slot
      obtain ⟨known', node'⟩ := slot'
      have hne : known' ≠ known := fun heq =>
        (List.nodup_cons.mp hn).1 (heq ▸ List.mem_cons_self)
      simp only [List.lookup_cons]
      by_cases hk : names = known
      · have hk' : (names == known') = false :=
          beq_false_of_ne fun heq => hne (heq.symm.trans hk)
        rw [hk']
      · rw [beq_false_of_ne hk]
  | trans h _ ih ih' => exact (ih hn).trans (ih' ((h.map _).nodup_iff.mp hn))

/-- What stands under names does not depend on the order in which a tree lists it. -/
theorem node?_perm (h : tree.Perm tree') (hn : (tree.map Prod.fst).Nodup) (names : List String) :
    node? tree names = node? tree' names := by
  rw [node?, node?, lookup_perm h hn, h.any_eq]

section SameNodes

variable (h : ∀ names, node? tree names = node? tree' names)

include h

theorem walk_congr (reached parts : List String) :
    walk tree reached parts = walk tree' reached parts := by
  induction parts generalizing reached with
  | nil => rfl
  | cons part rest ih => simp only [walk, h, ih]

theorem locate_congr (path : String) : tree.locate path = tree'.locate path := by
  simp only [locate, walk_congr h]

theorem find_congr (path : String) : tree.find path = tree'.find path := by
  simp only [find, locate_congr h, h]

theorem readText_congr (path : String) : tree.readText path = tree'.readText path := by
  simp only [readText, read, find_congr h]

end SameNodes

theorem mem_list_perm (h : tree.Perm tree') (hn : (tree.map Prod.fst).Nodup) (path name : String) :
    (∃ names, tree.list path = .ok names ∧ name ∈ names) ↔
      ∃ names, tree'.list path = .ok names ∧ name ∈ names := by
  have hentries : ∀ folder, name ∈ entries tree folder ↔ name ∈ entries tree' folder := by
    intro folder
    simp only [entries, List.mem_eraseDups]
    exact (h.filterMap _).mem_iff
  simp only [list, ← locate_congr (node?_perm h hn), ← node?_perm h hn]
  split
  · rfl
  · split
    · rfl
    · rfl
    · simp only [Except.ok.injEq, exists_eq_left', hentries]

/-! ## Sound trees -/

/-- Nothing is below a file, and no file is a folder that leads upwards. -/
structure Sound (tree : FileTree) : Prop where
  leaves : ∀ names content, (names, .file content) ∈ tree → tree.Bare names
  inside : ∀ names content, (names, .file content) ∈ tree → isAbove names = false

/-- The last part of a path that leads to a file is its name. -/
theorem Sound.walk_file (h : tree.Sound) {folder : List String} {last : String}
    {content : FileContent} (hwalk : walk tree folder [last] = .ok names)
    (hfile : node? tree names = some (.file content)) : last ≠ "." ∧ last ≠ ".." := by
  have hlisted := mem_of_node?_eq_file hfile
  have hfolder : node? tree folder = some .folder := by
    rw [walk] at hwalk
    cases hnode : node? tree folder with
    | none => simp [hnode] at hwalk
    | some node =>
        cases node with
        | file content => simp [hnode] at hwalk
        | folder => rfl
  constructor
  · rintro rfl
    have hnames : names = folder := by
      simpa [walk, hfolder, eq_comm] using hwalk
    rw [hnames, hfolder] at hfile
    cases hfile
  · rintro rfl
    have hnames : names = above folder := by
      simpa [walk, hfolder, eq_comm] using hwalk
    have hinside := h.inside names content hlisted
    rw [above] at hnames
    split_ifs at hnames with hroot habove
    · rw [hnames, hfolder] at hfile
      cases hfile
    · have hall : isAbove (folder ++ [".."]) = true := by
        rw [isAbove, List.all_append, Bool.and_eq_true]
        exact ⟨habove, by decide⟩
      rw [hnames, hall] at hinside
      cases hinside
    · -- the folder, or something in it, would be below a file
      have hthere : node? tree folder ≠ none := by simp [hfolder]
      rw [Ne, node?_eq_none_iff, not_and, not_forall] at hthere
      obtain ⟨slot, hslot⟩ := hthere (Bool.eq_false_iff.mpr habove)
      rw [not_forall, not_not] at hslot
      obtain ⟨hmem, hbelow⟩ := hslot
      have hlead : names <+: slot.1 := hnames ▸ (List.dropLast_prefix folder).trans hbelow
      have hsame := h.leaves names content hlisted slot hmem hlead
      rw [hsame, hnames] at hbelow
      have hlength := hbelow.length_le
      have hne : folder ≠ [] := by
        rintro rfl
        exact habove rfl
      have hpos := List.length_pos_iff.mpr hne
      rw [List.length_dropLast] at hlength
      omega

end Stepwise.FileTree
