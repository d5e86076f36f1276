import Mathlib
import Stepwise.Proofs.Files.Tree
import Stepwise.Store.WorkflowFolder

/-!
# What a folder of workflows answers

Each file with workflows defines some, one after another. Definitions are ordered by the names of
their files, and in a file by their positions. A folder lists the first definition of each name in
this order, or fails if one of the files does. So the files with workflows decide its answers, in
whatever order they are listed and whatever else is in the folder.
-/

namespace Stepwise

namespace WorkflowFolder

/-- A file with workflows stands in the folder. -/
def IsDocument (files : FileTree) (folder name : String) : Prop :=
  (∃ names, files.list folder = .ok names ∧ name ∈ names) ∧ isWorkflowFile name = true

/-- A workflow, with the file that defines it and the position in this file. -/
structure Definition where
  file : String
  position : Nat
  workflow : Workflow

namespace Definition

def name (d : Definition) : String := d.workflow.name

/-- The file can be read and has the workflow at the position. -/
def IsRead (files : FileTree) (folder : String) (d : Definition) : Prop :=
  ∃ workflows, load files (Path.join folder d.file) = .ok workflows ∧
    workflows[d.position]? = some d.workflow

/-- An earlier file, or an earlier position in the same one. The paths of the files of one folder are in
the order of their names. -/
def Before (d d' : Definition) : Prop :=
  d.file < d'.file ∨ (d.file = d'.file ∧ d.position < d'.position)

theorem Before.asymm {d d' : Definition} (h : d.Before d') : ¬d'.Before d := by
  rintro (hfile | ⟨hfile, hposition⟩)
  · rcases h with hfile' | ⟨hfile', -⟩
    · exact String.lt_asymm hfile hfile'
    · exact absurd hfile (hfile' ▸ String.lt_irrefl _)
  · rcases h with hfile' | ⟨-, hposition'⟩
    · exact absurd hfile' (hfile ▸ String.lt_irrefl _)
    · exact Nat.lt_asymm hposition hposition'

end Definition

/-- A definition in the folder, and the first one of its name. -/
structure IsFirst (files : FileTree) (folder : String) (d : Definition) : Prop where
  isDocument : IsDocument files folder d.file
  isRead : d.IsRead files folder
  first : ∀ d' : Definition, IsDocument files folder d'.file → d'.IsRead files folder →
    d'.name = d.name → d' = d ∨ d.Before d'

/-! ## The definitions in files -/

/-- The definitions in a file. -/
def definitions (file : String) (workflows : List Workflow) : List Definition :=
  workflows.zipIdx.map fun p => ⟨file, p.2, p.1⟩

theorem map_workflow_definitions (file : String) (workflows : List Workflow) :
    (definitions file workflows).map Definition.workflow = workflows := by
  rw [definitions, List.map_map]
  exact List.zipIdx_map_fst 0 workflows

theorem mem_definitions_iff {file : String} {workflows : List Workflow} {d : Definition} :
    d ∈ definitions file workflows ↔
      d.file = file ∧ workflows[d.position]? = some d.workflow := by
  rw [definitions, List.mem_map]
  constructor
  · rintro ⟨p, hp, rfl⟩
    exact ⟨rfl, List.mem_zipIdx_iff_getElem?.mp hp⟩
  · rintro ⟨rfl, hd⟩
    exact ⟨(d.workflow, d.position), List.mem_zipIdx_iff_getElem?.mpr hd, rfl⟩

theorem definitions_pairwise (file : String) (workflows : List Workflow) :
    (definitions file workflows).Pairwise Definition.Before := by
  have hpositions : (workflows.zipIdx.map Prod.snd).Pairwise (· < ·) := by
    rw [List.zipIdx_map_snd]
    exact List.pairwise_lt_range'
  rw [definitions, List.pairwise_map]
  exact (List.pairwise_map.mp hpositions).imp fun hlt => .inr ⟨rfl, hlt⟩

/-- Files that can be read give their definitions, one file after another. -/
theorem readAll_of_loads {files : FileTree} {folder : String} {names : List String}
    (h : ∀ name ∈ names, ∃ workflows, load files (Path.join folder name) = .ok workflows) :
    ∃ ds : List Definition,
      readAll files (names.map (Path.join folder)) = .ok (ds.map Definition.workflow) ∧
      (∀ d, d ∈ ds ↔ d.file ∈ names ∧ d.IsRead files folder) ∧
      (names.Pairwise (· < ·) → ds.Pairwise Definition.Before) := by
  induction names with
  | nil => exact ⟨[], rfl, by simp, fun _ => .nil⟩
  | cons name rest ih =>
      obtain ⟨⟨workflows, hload⟩, hrest⟩ := List.forall_mem_cons.mp h
      obtain ⟨ds, hread, hmem, hordered⟩ := ih hrest
      have hfirst : ∀ d, d ∈ definitions name workflows ↔
          d.file = name ∧ d.IsRead files folder := by
        intro d
        rw [mem_definitions_iff]
        refine and_congr_right ?_
        rintro rfl
        simp [Definition.IsRead, hload]
      refine ⟨definitions name workflows ++ ds, ?reads, fun d => ?_, fun hnames => ?_⟩
      case reads =>
        rw [List.map_cons, readAll, hload, hread, List.map_append, map_workflow_definitions]
        rfl
      · rw [List.mem_append, hfirst, hmem, List.mem_cons, or_and_right]
      · obtain ⟨hfront, hnames⟩ := List.pairwise_cons.mp hnames
        refine List.pairwise_append.mpr
          ⟨definitions_pairwise name workflows, hordered hnames, fun d hd d' hd' => .inl ?_⟩
        rw [((hfirst d).mp hd).1]
        exact hfront _ ((hmem d').mp hd').1

/-- One file that fails is enough, and what is reported is why one of them fails. -/
theorem readAll_of_failure {files : FileTree} {folder : String} {names : List String}
    (h : ∃ name ∈ names, ∃ e, load files (Path.join folder name) = .error e) :
    ∃ name ∈ names, ∃ e, load files (Path.join folder name) = .error e ∧
      readAll files (names.map (Path.join folder)) = .error e := by
  induction names with
  | nil => simp at h
  | cons name rest ih =>
      rw [List.map_cons]
      cases hload : load files (Path.join folder name) with
      | error e => exact ⟨name, List.mem_cons_self, e, hload, by rw [readAll, hload]⟩
      | ok workflows =>
          obtain ⟨name', hname', e, he, hread⟩ := ih (by simpa [hload] using h)
          refine ⟨name', List.mem_cons_of_mem _ hname', e, he, ?_⟩
          rw [readAll, hload, hread]
          rfl

theorem readAll_congr {files files' : FileTree} {paths : List String}
    (h : ∀ path ∈ paths, load files' path = load files path) :
    readAll files' paths = readAll files paths := by
  induction paths with
  | nil => rfl
  | cons path rest ih =>
      obtain ⟨hpath, hrest⟩ := List.forall_mem_cons.mp h
      rw [readAll, readAll, hpath, ih hrest]

/-! ## The first of each name -/

/-- Of definitions in order the first of each name is left, unless the name was seen before. -/
theorem firstOfEach_definitions {ds : List Definition} (h : ds.Pairwise Definition.Before)
    (seen : List String) :
    ∃ kept : List Definition,
      firstOfEach seen (ds.map Definition.workflow) = kept.map Definition.workflow ∧
      kept.Sublist ds ∧
      (kept.map Definition.name).Nodup ∧
      (∀ d ∈ ds, d.name ∉ seen → ∃ d' ∈ kept, d'.name = d.name) ∧
      ∀ d, d ∈ kept ↔ d ∈ ds ∧ d.name ∉ seen ∧
        ∀ d' ∈ ds, d'.name = d.name → d' = d ∨ d.Before d' := by
  induction ds generalizing seen with
  | nil => exact ⟨[], rfl, .slnil, List.nodup_nil, by simp, by simp⟩
  | cons x rest ih =>
      obtain ⟨hbefore, hrest⟩ := List.pairwise_cons.mp h
      rw [List.map_cons, firstOfEach]
      by_cases hseen : x.name ∈ seen
      · -- the other definitions of the name are left out as well
        obtain ⟨kept, hkept, hsublist, hnames, hall, hmem⟩ := ih hrest seen
        have hcontains : seen.contains x.workflow.name = true := List.contains_iff_mem.mpr hseen
        rw [if_pos hcontains]
        refine ⟨kept, hkept, hsublist.cons x, hnames,
          List.forall_mem_cons.mpr ⟨fun hout => absurd hseen hout, hall⟩, fun d => ?_⟩
        rw [hmem, List.forall_mem_cons, List.mem_cons]
        constructor
        · rintro ⟨hd, hout, hfirst⟩
          exact ⟨.inr hd, hout, fun hname => absurd (hname ▸ hseen) hout, hfirst⟩
        · rintro ⟨rfl | hd, hout, -, hfirst⟩
          · exact absurd hseen hout
          · exact ⟨hd, hout, hfirst⟩
      · obtain ⟨kept, hkept, hsublist, hnames, hall, hmem⟩ := ih hrest (x.name :: seen)
        have hcontains : ¬seen.contains x.workflow.name = true := mt List.contains_iff_mem.mp hseen
        rw [if_neg hcontains]
        refine ⟨x :: kept, congrArg (x.workflow :: ·) hkept, hsublist.cons_cons x, ?_,
          fun d hd hout => ?_, fun d => ?_⟩
        · refine List.nodup_cons.mpr ⟨fun hx => ?_, hnames⟩
          obtain ⟨d, hd, hname⟩ := List.mem_map.mp hx
          exact ((hmem d).mp hd).2.1 (hname ▸ List.mem_cons_self)
        · by_cases hname : d.name = x.name
          · exact ⟨x, List.mem_cons_self, hname.symm⟩
          · rcases List.mem_cons.mp hd with rfl | hd
            · exact absurd rfl hname
            · obtain ⟨d', hd', hsame⟩ :=
                hall d hd (List.not_mem_cons_of_ne_of_not_mem hname hout)
              exact ⟨d', List.mem_cons_of_mem _ hd', hsame⟩
        · rw [List.mem_cons, hmem, List.forall_mem_cons, List.mem_cons, List.mem_cons, not_or]
          constructor
          · rintro (rfl | ⟨hd, ⟨hne, hout⟩, hfirst⟩)
            · exact ⟨.inl rfl, hseen, fun _ => .inl rfl, fun d' hd' _ => .inr (hbefore d' hd')⟩
            · exact ⟨.inr hd, hout, fun hname => absurd hname.symm hne, hfirst⟩
          · rintro ⟨rfl | hd, hout, hx, hfirst⟩
            · exact .inl rfl
            · refine .inr ⟨hd, ⟨fun hname => ?_, hout⟩, hfirst⟩
              -- the first definition of the name would be behind another one
              rcases hx hname.symm with rfl | hlate
              · exact (hbefore x hd).asymm (hbefore x hd)
              · exact hlate.asymm (hbefore d hd)

/-! ## What stands in a folder -/

theorem mem_documents_iff {names : List String} {name : String} :
    name ∈ documents names ↔ name ∈ names ∧ isWorkflowFile name = true := by
  rw [documents, (List.mergeSort_perm _ _).mem_iff, List.mem_filter]

theorem documents_pairwise {names : List String} (h : names.Nodup) :
    (documents names).Pairwise (· < ·) := by
  have htrans : ∀ a b c : String, decide (a ≤ b) = true → decide (b ≤ c) = true →
      decide (a ≤ c) = true := fun a b c hab hbc =>
    decide_eq_true (String.le_trans (of_decide_eq_true hab) (of_decide_eq_true hbc))
  have htotal : ∀ a b : String, (decide (a ≤ b) || decide (b ≤ a)) = true := fun a b => by
    simpa using String.le_total a b
  have hsorted : (documents names).Pairwise fun a b => decide (a ≤ b) = true :=
    List.pairwise_mergeSort htrans htotal (names.filter isWorkflowFile)
  have hdistinct : (documents names).Nodup :=
    (List.mergeSort_perm _ _).nodup_iff.mpr (h.filter _)
  refine hsorted.imp₂ (fun a b hle hne => ?_) hdistinct
  exact String.not_le.mp fun hback => hne (String.le_antisymm (of_decide_eq_true hle) hback)

/-- A folder is read from its documents in the order of their names. -/
theorem exists_documents {files : FileTree} {folder : String}
    (h : ∀ content, files.find folder ≠ .ok (.file content)) :
    ∃ names : List String, names.Pairwise (· < ·) ∧
      (∀ name, name ∈ names ↔ IsDocument files folder name) ∧
      list files folder =
        (readAll files (names.map (Path.join folder))).map (firstOfEach []) := by
  rcases FileTree.list_cases h with ⟨hhas, names, hnames, hdistinct⟩ | ⟨hhas, e, hnames⟩
  · refine ⟨documents names, documents_pairwise hdistinct, fun name => ?_, ?_⟩
    · simp [mem_documents_iff, IsDocument, hnames]
    · rw [list, if_pos hhas, hnames]
  · refine ⟨[], .nil, fun name => ?_, ?_⟩
    · simp [IsDocument, hnames]
    · rw [list, if_neg (by simp [hhas])]
      rfl

theorem find?_eq_some_iff_of_nodup {workflows : List Workflow}
    (h : (workflows.map Workflow.name).Nodup) {name : String} {w : Workflow} :
    workflows.find? (fun w => w.name == name) = some w ↔ w ∈ workflows ∧ w.name = name := by
  induction workflows with
  | nil => simp
  | cons first rest ih =>
      obtain ⟨hout, hrest⟩ := List.nodup_cons.mp h
      rw [List.find?_cons, List.mem_cons]
      by_cases hname : first.name = name
      · have hothers : ∀ w' ∈ rest, w'.name ≠ name := fun w' hw' heq =>
          hout (List.mem_map.mpr ⟨w', hw', heq.trans hname.symm⟩)
        simp only [beq_iff_eq.mpr hname, Option.some.injEq]
        constructor
        · rintro rfl
          exact ⟨.inl rfl, hname⟩
        · rintro ⟨rfl | hw, hsame⟩
          · rfl
          · exact absurd hsame (hothers w hw)
      · rw [beq_false_of_ne hname, ih hrest]
        constructor
        · exact fun ⟨hw, hsame⟩ => ⟨.inr hw, hsame⟩
        · rintro ⟨rfl | hw, hsame⟩
          · exact absurd hsame hname
          · exact ⟨hw, hsame⟩

/-- Two trees have the same documents in a folder, with the same workflows. -/
structure SameDocuments (files files' : FileTree) (folder : String) : Prop where
  documents : ∀ name, IsDocument files' folder name ↔ IsDocument files folder name
  loads : ∀ name, IsDocument files folder name →
    load files' (Path.join folder name) = load files (Path.join folder name)

theorem list_congr {files files' : FileTree} {folder : String}
    (h : ∀ content, files.find folder ≠ .ok (.file content))
    (h' : ∀ content, files'.find folder ≠ .ok (.file content))
    (hsame : SameDocuments files files' folder) : list files' folder = list files folder := by
  obtain ⟨names, hordered, hmem, hlist⟩ := exists_documents h
  obtain ⟨names', hordered', hmem', hlist'⟩ := exists_documents h'
  have : Std.Irrefl fun a b : String => a < b := ⟨String.lt_irrefl⟩
  have hnames : names' = names := by
    refine hordered'.eq_of_mem_iff hordered fun name => ?_
    rw [hmem, hmem', hsame.documents]
  have hread : readAll files' (names.map (Path.join folder)) =
      readAll files (names.map (Path.join folder)) := by
    refine readAll_congr (List.forall_mem_map.mpr fun name hname => ?_)
    exact hsame.loads name ((hmem name).mp hname)
  rw [hlist, hlist', hnames, hread]

/-- The order in which a tree lists files does not matter. -/
theorem sameDocuments_of_perm {files files' : FileTree} (h : files.Perm files')
    (hn : (files.map Prod.fst).Nodup) (folder : String) : SameDocuments files files' folder where
  documents name := and_congr_left fun _ => (FileTree.mem_list_perm h hn folder name).symm
  loads name _ := by
    rw [load, load, FileTree.readText_congr (FileTree.node?_perm h hn)]

/-- A folder fails, whatever workflow it is asked for, if a document in it cannot be read; then it
reports such a document. Otherwise it lists the first definition of each name that a document
defines, in the order of the definitions, and finds the listed workflow of a name, if there is one.
Its answers stay the same as long as its documents do, so also when the files are listed in another
order. -/
theorem folder_answers {files : FileTree} {folder : String}
    (hfolder : ∀ content, files.find folder ≠ .ok (.file content)) :
    ((∃ name, IsDocument files folder name ∧
        ∃ e, load files (Path.join folder name) = .error e) →
      ∃ name, IsDocument files folder name ∧ ∃ e, load files (Path.join folder name) = .error e ∧
        list files folder = .error e ∧ ∀ name, find files folder name = .error e) ∧
    ((∀ name, IsDocument files folder name →
        ∃ workflows, load files (Path.join folder name) = .ok workflows) →
      ∃ ds : List Definition,
        list files folder = .ok (ds.map Definition.workflow) ∧
        ds.Pairwise Definition.Before ∧
        (ds.map Definition.name).Nodup ∧
        (∀ d, d ∈ ds ↔ IsFirst files folder d) ∧
        (∀ d : Definition, IsDocument files folder d.file → d.IsRead files folder →
          ∃ d' ∈ ds, d'.name = d.name) ∧
        ∀ name, ∃ found, find files folder name = .ok found ∧
          ∀ w, found = some w ↔ w ∈ ds.map Definition.workflow ∧ w.name = name) ∧
    (∀ files' : FileTree, (∀ content, files'.find folder ≠ .ok (.file content)) →
      SameDocuments files files' folder →
      list files' folder = list files folder ∧
        ∀ name, find files' folder name = find files folder name) ∧
    ((files.map Prod.fst).Nodup → ∀ files' : FileTree, files.Perm files' →
      list files' folder = list files folder ∧
        ∀ name, find files' folder name = find files folder name) := by
  obtain ⟨names, hordered, hmem, hlist⟩ := exists_documents hfolder
  have hsame : ∀ files' : FileTree, (∀ content, files'.find folder ≠ .ok (.file content)) →
      SameDocuments files files' folder →
      list files' folder = list files folder ∧
        ∀ name, find files' folder name = find files folder name := by
    intro files' hfolder' hsame
    have hlists := list_congr hfolder hfolder' hsame
    exact ⟨hlists, fun name => by rw [find, find, hlists]⟩
  refine ⟨?fails, ?answers, hsame, fun hn files' hperm => ?order⟩
  case fails =>
    simp only [← hmem]
    intro hfails
    obtain ⟨name, hname, e, he, hread⟩ := readAll_of_failure hfails
    have herror : list files folder = .error e := by
      rw [hlist, hread]
      rfl
    exact ⟨name, hname, e, he, herror, fun name => by rw [find, herror]; rfl⟩
  case answers =>
    intro hloads
    obtain ⟨all, hread, hall, hpairwise⟩ :=
      readAll_of_loads fun name hname => hloads name ((hmem name).mp hname)
    obtain ⟨ds, hfirst, hsublist, hnames, hcovers, hds⟩ :=
      firstOfEach_definitions (hpairwise hordered) []
    have hlisted : list files folder = .ok (ds.map Definition.workflow) := by
      rw [hlist, hread, ← hfirst]
      rfl
    refine ⟨ds, hlisted, (hpairwise hordered).sublist hsublist, hnames, fun d => ?_,
      fun d hdocument hd => ?_, fun name => ⟨_, by rw [find, hlisted]; rfl, fun w => ?_⟩⟩
    · rw [hds]
      simp only [hall, hmem]
      constructor
      · rintro ⟨⟨hdocument, hd⟩, -, hbefore⟩
        exact ⟨hdocument, hd, fun d' hdocument' hd' => hbefore d' ⟨hdocument', hd'⟩⟩
      · rintro ⟨hdocument, hd, hbefore⟩
        exact ⟨⟨hdocument, hd⟩, List.not_mem_nil, fun d' hd' => hbefore d' hd'.1 hd'.2⟩
    · exact hcovers d ((hall d).mpr ⟨(hmem d.file).mpr hdocument, hd⟩) List.not_mem_nil
    · refine find?_eq_some_iff_of_nodup ?_
      rw [List.map_map]
      exact hnames
  case order =>
    refine hsame files' (fun content => ?_) (sameDocuments_of_perm hperm hn folder)
    rw [← FileTree.find_congr (FileTree.node?_perm hperm hn)]
    exact hfolder content

/-- Two files with workflows, listed out of order, and one without. The first of them in the listing
defines a name twice. -/
def shuffledFiles : FileTree :=
  [(["flows", "b.json"], .file (.text
      "\x7b\"processes\":[\x7b\"name\":\"x\"\x7d,\x7b\"name\":\"x\",\"label\":\"y\"\x7d]\x7d")),
    (["flows", "notes.txt"], .file (.text "[")),
    (["flows", "a.yml"], .file (.text "\x7b\"name\":\"y\"\x7d"))]

set_option maxRecDepth 4000 in
/-- The folder lists its first definitions, also when its files are listed the other way round. -/
theorem shuffledFiles_answers :
    (∀ content, shuffledFiles.find "flows" ≠ .ok (.file content)) ∧
    (∃ ds : List Definition,
      list shuffledFiles "flows" = .ok (ds.map Definition.workflow) ∧
      ds.map Definition.workflow = [⟨"y", none, none, []⟩, ⟨"x", none, none, []⟩] ∧
      ∀ d, d ∈ ds ↔ IsFirst shuffledFiles "flows" d) ∧
    find shuffledFiles "flows" "x" = .ok (some ⟨"x", none, none, []⟩) ∧
    list shuffledFiles.reverse "flows" =
      .ok [⟨"y", none, none, []⟩, ⟨"x", none, none, []⟩] := by
  have hfolder : ∀ content, shuffledFiles.find "flows" ≠ .ok (.file content) := by
    rintro content ⟨⟩
  have hfirst : Workflow.ofText "\x7b\"name\":\"y\"\x7d" = .ok [⟨"y", none, none, []⟩] := by cbv
  have hsecond : Workflow.ofText
      "\x7b\"processes\":[\x7b\"name\":\"x\"\x7d,\x7b\"name\":\"x\",\"label\":\"y\"\x7d]\x7d" =
        .ok [⟨"x", none, none, []⟩, ⟨"x", some "y", none, []⟩] := by cbv
  have hload : load shuffledFiles "flows/a.yml" = .ok [⟨"y", none, none, []⟩] := by
    have hread : shuffledFiles.readText "flows/a.yml" = .ok "\x7b\"name\":\"y\"\x7d" := rfl
    simp only [load, hread, hfirst]
  have hload' : load shuffledFiles "flows/b.json" =
      .ok [⟨"x", none, none, []⟩, ⟨"x", some "y", none, []⟩] := by
    have hread : shuffledFiles.readText "flows/b.json" = .ok
        "\x7b\"processes\":[\x7b\"name\":\"x\"\x7d,\x7b\"name\":\"x\",\"label\":\"y\"\x7d]\x7d" :=
      rfl
    simp only [load, hread, hsecond]
  have hnames : shuffledFiles.list "flows" = .ok ["b.json", "notes.txt", "a.yml"] := rfl
  have hdocuments : documents ["b.json", "notes.txt", "a.yml"] = ["a.yml", "b.json"] := by cbv
  have hlist : list shuffledFiles "flows" =
      .ok [⟨"y", none, none, []⟩, ⟨"x", none, none, []⟩] := by
    have hpaths : ["a.yml", "b.json"].map (Path.join "flows") =
        ["flows/a.yml", "flows/b.json"] := rfl
    have hhas : shuffledFiles.has "flows" = true := rfl
    simp [list, hhas, hnames, hdocuments, hpaths, readAll, hload, hload', Except.map, firstOfEach]
  have hloads : ∀ name, IsDocument shuffledFiles "flows" name →
      ∃ workflows, load shuffledFiles (Path.join "flows" name) = .ok workflows := by
    rintro name ⟨⟨names, hnames', hname⟩, hfile⟩
    obtain rfl := Except.ok.inj (hnames.symm.trans hnames')
    have hmem := mem_documents_iff.mpr ⟨hname, hfile⟩
    rw [hdocuments] at hmem
    rcases List.mem_pair.mp hmem with rfl | rfl
    · exact ⟨_, hload⟩
    · exact ⟨_, hload'⟩
  obtain ⟨-, hanswers, -, horder⟩ := folder_answers hfolder
  obtain ⟨ds, hds, -, -, hmem, -, hfound⟩ := hanswers hloads
  have hworkflows := Except.ok.inj (hds.symm.trans hlist)
  obtain ⟨found, hfind, hiff⟩ := hfound "x"
  refine ⟨hfolder, ⟨ds, hds, hworkflows, hmem⟩, ?_, ?_⟩
  · rw [hfind, (hiff ⟨"x", none, none, []⟩).mpr ⟨by rw [hworkflows]; simp, rfl⟩]
  · rw [(horder (by decide) shuffledFiles.reverse (List.reverse_perm _).symm).1, hlist]

end WorkflowFolder

end Stepwise
