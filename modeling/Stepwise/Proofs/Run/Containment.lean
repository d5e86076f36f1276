import Stepwise.Proofs.Files.Components
import Stepwise.Proofs.Run.Calls
import Stepwise.Proofs.Run.Surroundings

/-!
# Forms stay in their folder

The forms of a run come from a folder and are stored in it. A run notes what is read, made and
written for them. All of it lies inside the folder, whatever the workflow gives as the path of a
template and whatever the pool gives as the name of a variable: a name is resolved exactly if it
cannot lead out, and without a path nothing is asked of the files.
-/

namespace Stepwise

open Stepwise.Path (Component components Inside)

/-- What is asked of files. -/
inductive FileUse where
  | read (path : String)
  | makeFolder (path : String)
  | write (path : String)
  deriving DecidableEq

/-- What is read or written lies inside a folder, and the folder that is made stands above such a
path. -/
def FileUse.Within (folder : String) : FileUse → Prop
  | read path => Inside folder path
  | makeFolder path => ∃ target, Inside folder target ∧ Path.parent target = path
  | write path => Inside folder path

/-- The same access, with a note of everything that is asked. -/
def FileAccess.noted {σ : Type} (files : FileAccess σ) : FileAccess (σ × List FileUse) where
  read path := noting (.read path) (files.read path)
  makeFolder path := noting (.makeFolder path) (files.makeFolder path)
  write path content := noting (.write path) (files.write path content)

/-- Where the form in work lies. -/
structure Desk (σ : Type) where
  take : StateM σ Pdf.Form
  put : Pdf.Form → StateM σ Unit

namespace Desk

variable {σ : Type}

/-- Put a changed form in the place of the form in work. -/
def change (desk : Desk σ) (next : Pdf.Form → Except FormError Pdf.Form) :
    StateM σ (Except FormError Unit) := do
  match next (← desk.take) with
  | .error e => return .error e
  | .ok form => do
      desk.put form
      return .ok ()

/-- The same desk beside notes. -/
def unnoted {κ : Type} (desk : Desk σ) : Desk (σ × List κ) where
  take := Stepwise.unnoted desk.take
  put form := Stepwise.unnoted (desk.put form)

end Desk

namespace Collaborators

variable {σ β : Type}

/-- The same collaborators with forms from a folder, which are filled on a desk. -/
def withForms (c : Collaborators σ β) (desk : Desk σ) (files : FileAccess σ) (folder : String) :
    Collaborators σ Pdf.Document where
  evaluate := c.evaluate
  findOne := c.findOne
  updateOne := c.updateOne
  send := c.send
  request := c.request
  openForm path := do
    match ← Pdf.Folder.openForm files folder path with
    | .error e => return .error e
    | .ok form => do
        desk.put form
        return .ok ()
  setTextField name text := desk.change fun form => form.setTextField name text
  flatten := desk.change Pdf.Form.flatten
  save := do return .ok (← desk.take).document
  store name document := Pdf.Folder.store files folder name document
  stamp := c.stamp

/-- The collaborators with forms from a folder, with a note of what is asked of the files for
them. -/
def withNotedForms (c : Collaborators σ β) (desk : Desk σ) (files : FileAccess σ)
    (folder : String) : Collaborators (σ × List FileUse) Pdf.Document :=
  c.unnoted.withForms desk.unnoted files.noted folder

end Collaborators

/-! ## Notes of a kind -/

section Notes

variable {σ κ : Type}

/-- From a state the first computation does what the second one does, and adds notes of a kind
behind those made before. -/
def NotedFrom {α : Type} (Allowed : κ → Prop) (loud : StateM (σ × List κ) α) (quiet : StateM σ α)
    (s : σ) : Prop :=
  ∃ notes : List κ, (∀ note ∈ notes, Allowed note) ∧
    ∀ log, loud.run (s, log) = ((quiet.run s).1, ((quiet.run s).2, log ++ notes))

variable {Allowed : κ → Prop}

theorem notedFrom_of_silent {α : Type} {loud : StateM (σ × List κ) α} {quiet : StateM σ α} {s : σ}
    (h : ∀ log, loud.run (s, log) = ((quiet.run s).1, ((quiet.run s).2, log))) :
    NotedFrom Allowed loud quiet s :=
  ⟨[], by simp, fun log => by rw [List.append_nil]; exact h log⟩

theorem NotedFrom.bind {α γ : Type} {x : StateM (σ × List κ) α} {y : StateM σ α}
    {f : α → StateM (σ × List κ) γ} {g : α → StateM σ γ} {s : σ} (hx : NotedFrom Allowed x y s)
    (hf : NotedFrom Allowed (f (y.run s).1) (g (y.run s).1) (y.run s).2) :
    NotedFrom Allowed (x >>= f) (y >>= g) s := by
  obtain ⟨first, hfirst, hrun⟩ := hx
  obtain ⟨second, hsecond, hnext⟩ := hf
  refine ⟨first ++ second, List.forall_mem_append.mpr ⟨hfirst, hsecond⟩, fun log => ?_⟩
  rw [run_bind, run_bind, hrun, hnext, List.append_assoc]

/-- Taking notes of a kind is a correspondence. -/
def notesOfKind (σ : Type) (Allowed : κ → Prop) : Correspondence (σ × List κ) σ where
  Holds loud quiet := ∀ s, NotedFrom Allowed loud quiet s
  pure _ _ := notedFrom_of_silent fun _ => rfl
  bind hx hf s := (hx s).bind (hf _ _)

theorem notesOfKind_unnoted {α : Type} (Allowed : κ → Prop) (x : StateM σ α) :
    (notesOfKind σ Allowed).Holds (unnoted x) x := fun _ => notedFrom_of_silent fun _ => rfl

theorem notesOfKind_noting {α : Type} {note : κ} (hnote : Allowed note)
    (x : StateM σ α) : (notesOfKind σ Allowed).Holds (noting note x) x :=
  fun _ => ⟨[note], List.forall_mem_singleton.mpr hnote, fun _ => rfl⟩

/-- What happens to the form in work is not noted. -/
theorem Desk.notesOfKind_change (Allowed : κ → Prop) (desk : Desk σ)
    (next : Pdf.Form → Except FormError Pdf.Form) :
    (notesOfKind σ Allowed).Holds (desk.unnoted.change next) (desk.change next) := by
  refine (notesOfKind σ Allowed).bind (notesOfKind_unnoted Allowed _) fun form => ?_
  cases next form with
  | error e => exact (notesOfKind σ Allowed).pure _
  | ok form =>
      exact (notesOfKind σ Allowed).bind (notesOfKind_unnoted Allowed _) fun _ =>
        (notesOfKind σ Allowed).pure _

end Notes

/-! ## Notes of files -/

section Files

variable {σ β : Type} (c : Collaborators σ β) (desk : Desk σ) (files : FileAccess σ)
  {folder : String} {Allowed : FileUse → Prop}

/-- Opening a template only reads the path of its name. -/
theorem Collaborators.notesOfKind_openForm (name : String)
    (hread : ∀ path, Pdf.Folder.resolve? folder name = some path → Allowed (.read path)) :
    (notesOfKind σ Allowed).Holds ((c.withNotedForms desk files folder).openForm name)
      ((c.withForms desk files folder).openForm name) := by
  have hopen : (notesOfKind σ Allowed).Holds (Pdf.Folder.openForm files.noted folder name)
      (Pdf.Folder.openForm files folder name) := by
    unfold Pdf.Folder.openForm
    cases hpath : Pdf.Folder.resolve? folder name with
    | none => exact (notesOfKind σ Allowed).pure _
    | some path =>
        refine (notesOfKind σ Allowed).bind (notesOfKind_noting (hread path hpath) _) fun found => ?_
        cases found with
        | ok content => exact (notesOfKind σ Allowed).pure _
        | error fault => cases fault <;> exact (notesOfKind σ Allowed).pure _
  refine (notesOfKind σ Allowed).bind hopen fun opened => ?_
  cases opened with
  | error e => exact (notesOfKind σ Allowed).pure _
  | ok form =>
      exact (notesOfKind σ Allowed).bind (notesOfKind_unnoted Allowed _) fun _ =>
        (notesOfKind σ Allowed).pure _

/-- Storing a form only makes the folder of its path and writes the path. -/
theorem Collaborators.notesOfKind_store (name : String) (document : Pdf.Document)
    (hwrite : ∀ path, Pdf.Folder.resolve? folder name = some path →
      Allowed (.makeFolder (Path.parent path)) ∧ Allowed (.write path)) :
    (notesOfKind σ Allowed).Holds ((c.withNotedForms desk files folder).store name document)
      ((c.withForms desk files folder).store name document) := by
  simp only [withNotedForms, withForms, Pdf.Folder.store]
  cases hpath : Pdf.Folder.resolve? folder name with
  | none => exact (notesOfKind σ Allowed).pure _
  | some path =>
      obtain ⟨hmade, hwritten⟩ := hwrite path hpath
      refine (notesOfKind σ Allowed).bind (notesOfKind_noting hmade _) fun made => ?_
      cases made with
      | error e => exact (notesOfKind σ Allowed).pure _
      | ok _ =>
          refine (notesOfKind σ Allowed).bind (notesOfKind_noting hwritten _) fun written => ?_
          cases written <;> exact (notesOfKind σ Allowed).pure _

/-- All that is noted lies inside the folder, and the notes change nothing else. -/
theorem Collaborators.withNotedForms_within (hfolder : folder ≠ "") :
    Corresponds (notesOfKind σ (FileUse.Within folder)) (c.withNotedForms desk files folder)
      (c.withForms desk files folder) where
  evaluate _ _ := notesOfKind_unnoted _ _
  findOne _ := notesOfKind_unnoted _ _
  updateOne _ _ := notesOfKind_unnoted _ _
  send _ := notesOfKind_unnoted _ _
  request _ := notesOfKind_unnoted _ _
  openForm name := c.notesOfKind_openForm desk files name fun _ hpath =>
    (Pdf.Folder.components_of_resolve? hfolder hpath).2
  setTextField _ _ := desk.notesOfKind_change _ _
  flatten := desk.notesOfKind_change _ _
  save := (notesOfKind σ _).bind (notesOfKind_unnoted _ _) fun _ => (notesOfKind σ _).pure _
  store name document := c.notesOfKind_store desk files name document fun path hpath =>
    have hinside := (Pdf.Folder.components_of_resolve? hfolder hpath).2
    ⟨⟨path, hinside, rfl⟩, hinside⟩
  stamp := notesOfKind_unnoted _ _

end Files

/-! ## Resolved names -/

section Resolved

variable {σ β : Type} (c : Collaborators σ β) (desk : Desk σ) (files : FileAccess σ)
  {folder name path : String} (hpath : Pdf.Folder.resolve? folder name = some path)
include hpath

/-- A template is read at its path. -/
theorem Collaborators.uses_openForm (s : σ) (log : List FileUse) :
    (((c.withNotedForms desk files folder).openForm name).run (s, log)).2.2 =
      log ++ [.read path] := by
  have hread : (files.noted.read path).run (s, log) =
      (((files.read path).run s).1, (((files.read path).run s).2, log ++ [.read path])) := rfl
  simp only [withNotedForms, withForms, Pdf.Folder.openForm, hpath, run_bind, hread]
  cases ((files.read path).run s).1 with
  | error fault => cases fault <;> rfl
  | ok content =>
      simp only [run_pure]
      cases Pdf.Form.ofSource content.source <;> rfl

/-- A form is written at its path after the folder above it was made. -/
theorem Collaborators.uses_store (document : Pdf.Document) (s : σ) (log : List FileUse) :
    ∃ rest, (((c.withNotedForms desk files folder).store name document).run (s, log)).2.2 =
      log ++ .makeFolder (Path.parent path) :: rest ∧ (rest = [] ∨ rest = [.write path]) := by
  have hmake : (files.noted.makeFolder (Path.parent path)).run (s, log) =
      (((files.makeFolder (Path.parent path)).run s).1,
        (((files.makeFolder (Path.parent path)).run s).2,
          log ++ [.makeFolder (Path.parent path)])) := rfl
  simp only [withNotedForms, withForms, Pdf.Folder.store, hpath, run_bind, hmake]
  cases ((files.makeFolder (Path.parent path)).run s).1 with
  | error e => exact ⟨[], rfl, .inl rfl⟩
  | ok _ =>
      refine ⟨[.write path], ?_, .inr rfl⟩
      rw [run_bind]
      have hwrite (t : σ) (log : List FileUse) :
          (files.noted.write path (.form document)).run (t, log) =
            (((files.write path (.form document)).run t).1,
              (((files.write path (.form document)).run t).2, log ++ [.write path])) := rfl
      rw [hwrite]
      cases ((files.write path (.form document)).run
        ((files.makeFolder (Path.parent path)).run s).2).1 <;>
        exact List.append_assoc _ _ _

end Resolved

/-! ## Refused names -/

section Refused

variable {σ β : Type} (c : Collaborators σ β) (desk : Desk σ) (files : FileAccess σ)
  {folder : String}

/-- Why a template is not found under a name that is refused. -/
theorem Collaborators.openForm_of_refused {name : String}
    (hname : Pdf.Folder.resolve? folder name = none) :
    (c.withForms desk files folder).openForm name = pure (.error (.templateNotFound name)) := by
  simp only [withForms, Pdf.Folder.openForm, hname]
  rfl

theorem Collaborators.store_of_refused {name : String}
    (hname : Pdf.Folder.resolve? folder name = none) (document : Pdf.Document) :
    (c.withForms desk files folder).store name document =
      pure (.error (.malformed ("invalid output file name '" ++ name ++ "'"))) := by
  simp only [withForms, Pdf.Folder.store, hname]

/-- Without a template nothing else happens. -/
theorem Collaborators.createPdf_of_refused_template {settings : CreatePdf}
    (hname : Pdf.Folder.resolve? folder settings.template.path = none) (pool : Pool) :
    (c.withForms desk files folder).createPdf settings pool = pure .failed := by
  rw [createPdf]
  cases Pool.variableNamed? pool settings.source.value with
  | none => rfl
  | some source =>
      simp only [c.openForm_of_refused desk files hname]
      rfl

/-- A form whose name is refused is not stored. -/
theorem Collaborators.finishForm_of_refused_output {settings : CreatePdf}
    (hname : ∀ s, Pdf.Folder.resolve? folder (settings.fileName (c.stamp.run s).1) = none) (s : σ) :
    (((c.withForms desk files folder).finishForm settings).run s).1 = .failed := by
  have hstore (s : σ) (document : Pdf.Document) := congrArg (StateT.run · (c.stamp.run s).2)
    (c.store_of_refused desk files (hname s) document)
  have hstamp : (c.withForms desk files folder).stamp = c.stamp := rfl
  simp only [finishForm, run_bind, hstamp]
  split
  · rfl
  · simp only [run_bind]
    split
    · rfl
    · simp only [run_bind, hstore]
      rfl

/-- Finishing a form whose name is refused asks nothing of the files. -/
theorem Collaborators.notesOfKind_finishForm_of_refused {settings : CreatePdf}
    (hname : ∀ s, Pdf.Folder.resolve? folder (settings.fileName (c.stamp.run s).1) = none)
    (Allowed : FileUse → Prop) :
    (notesOfKind σ Allowed).Holds ((c.withNotedForms desk files folder).finishForm settings)
      ((c.withForms desk files folder).finishForm settings) := by
  refine (notesOfKind σ Allowed).bind (desk.notesOfKind_change Allowed _) fun locked => ?_
  cases locked with
  | error e => exact (notesOfKind σ Allowed).pure _
  | ok _ =>
      refine (notesOfKind σ Allowed).bind ((notesOfKind σ Allowed).bind
        (notesOfKind_unnoted Allowed _) fun _ => (notesOfKind σ Allowed).pure _) fun saved => ?_
      cases saved with
      | error e => exact (notesOfKind σ Allowed).pure _
      | ok document =>
          -- the name is refused for the stamps that the clock shows, and for no others
          refine fun s => (notesOfKind_unnoted Allowed c.stamp s).bind ?_
          have hloud := c.unnoted.store_of_refused desk.unnoted files.noted (hname s) document
          have hquiet := c.store_of_refused desk files (hname s) document
          simp only [withNotedForms, hloud, hquiet]
          exact (notesOfKind σ Allowed).pure _ _

/-- A form whose name is refused fails, and of the files only its template is read. -/
theorem Collaborators.createPdf_of_refused_output {settings : CreatePdf}
    (hname : ∀ s, Pdf.Folder.resolve? folder (settings.fileName (c.stamp.run s).1) = none)
    (pool : Pool) (s : σ) :
    (((c.withForms desk files folder).createPdf settings pool).run s).1 = .failed ∧
      NotedFrom (fun use => ∃ path,
        Pdf.Folder.resolve? folder settings.template.path = some path ∧ use = .read path)
        ((c.withNotedForms desk files folder).createPdf settings pool)
        ((c.withForms desk files folder).createPdf settings pool) s := by
  simp only [createPdf]
  cases Pool.variableNamed? pool settings.source.value with
  | none => exact ⟨rfl, (notesOfKind σ _).pure _ s⟩
  | some source =>
      constructor
      · simp only [run_bind]
        split
        · rfl
        · simp only [run_bind]
          exact c.finishForm_of_refused_output desk files hname _
      · refine (notesOfKind σ _).bind (c.notesOfKind_openForm desk files settings.template.path
          fun path hpath => ⟨path, hpath, rfl⟩) (fun opened => ?_) s
        cases opened with
        | error e => exact (notesOfKind σ _).pure _
        | ok _ =>
            refine (notesOfKind σ _).bind ?_ fun _ =>
              c.notesOfKind_finishForm_of_refused desk files hname _
            induction settings.entries source with
            | nil => exact (notesOfKind σ _).pure ()
            | cons entry rest ih =>
                exact (notesOfKind σ _).bind (desk.notesOfKind_change _ _) fun _ => ih

end Refused

/-- Names are resolved exactly if they are not blank, do not start at the root and have no component
that goes up; a path then has the components of the folder followed by those of the name without
`.`, which are names. In every run the forms are asked for by such paths alone: a template is read
at its path, and a form is written at its path after the folder above it was made. A name that is
refused fails without asking anything of the files, and so does the step that makes a form of it;
if the name of the form is refused, its template has been read at most. -/
theorem Collaborators.forms_stay_in_folder {folder : String} (hfolder : folder ≠ "") :
    (∀ name, (∃ path, Pdf.Folder.resolve? folder name = some path) ↔
      (∃ character ∈ name.toList, Text.isBlank character = false) ∧
        name.toList.head? ≠ some '/' ∧ Component.up ∉ components name) ∧
    (∀ name path, Pdf.Folder.resolve? folder name = some path →
      components path = components folder ++ (components name).filter (· ≠ .current) ∧
        Inside folder path) ∧
    ∀ {σ β : Type} (c : Collaborators σ β) (desk : Desk σ) (files : FileAccess σ),
      let plain := c.withForms desk files folder
      let noted := c.withNotedForms desk files folder
      (∀ workflow pool s, ∃ uses : List FileUse, (∀ use ∈ uses, use.Within folder) ∧
        (noted.run workflow pool).run (s, []) =
          (((plain.run workflow pool).run s).1, (((plain.run workflow pool).run s).2, uses))) ∧
      (∀ name path, Pdf.Folder.resolve? folder name = some path → ∀ s document,
        ((noted.openForm name).run (s, [])).2.2 = [.read path] ∧
        ∃ rest, ((noted.store name document).run (s, [])).2.2 =
          .makeFolder (Path.parent path) :: rest ∧ (rest = [] ∨ rest = [.write path])) ∧
      (∀ name, Pdf.Folder.resolve? folder name = none → ∀ s document,
        (plain.openForm name).run s = (.error (.templateNotFound name), s) ∧
        (plain.store name document).run s =
          (.error (.malformed ("invalid output file name '" ++ name ++ "'")), s)) ∧
      (∀ settings pool, Pdf.Folder.resolve? folder settings.template.path = none → ∀ s,
        (plain.createPdf settings pool).run s = (.failed, s)) ∧
      ∀ settings pool,
        (∀ s, Pdf.Folder.resolve? folder (settings.fileName (c.stamp.run s).1) = none) → ∀ s,
        ∃ uses, (noted.createPdf settings pool).run (s, []) =
          (.failed, (((plain.createPdf settings pool).run s).2, uses)) ∧
          ∀ use ∈ uses, ∃ path,
            Pdf.Folder.resolve? folder settings.template.path = some path ∧ use = .read path := by
  refine ⟨fun name => ?_, fun name path => Pdf.Folder.components_of_resolve? hfolder,
    fun {σ β} c desk files => ?_⟩
  · simp only [Pdf.Folder.resolve?_eq_some_iff, exists_and_left, exists_eq', and_true]
  intro plain noted
  refine ⟨fun workflow pool s => ?_, fun name path hpath s document => ?_,
    fun name hname s document => ?_, fun settings pool hname s => ?_,
    fun settings pool hname s => ?_⟩
  · have hruns : NotedFrom (FileUse.Within folder) (noted.run workflow pool)
        (plain.run workflow pool) s :=
      (c.withNotedForms_within desk files hfolder).runAlike.run (fun _ _ => trivial) pool s
    obtain ⟨uses, huses, hrun⟩ := hruns
    exact ⟨uses, huses, hrun []⟩
  · exact ⟨c.uses_openForm desk files hpath s [], c.uses_store desk files hpath document s []⟩
  · exact ⟨congrArg (StateT.run · s) (c.openForm_of_refused desk files hname),
      congrArg (StateT.run · s) (c.store_of_refused desk files hname document)⟩
  · exact congrArg (StateT.run · s) (c.createPdf_of_refused_template desk files hname pool)
  · obtain ⟨hfailed, uses, huses, hrun⟩ := c.createPdf_of_refused_output desk files hname pool s
    exact ⟨uses, (hrun []).trans (by rw [hfailed]; rfl), huses⟩

/-! ## A name that climbs out

Among the files lies a template, below the folder for forms. The name of the form that is made of it
holds the name of a variable, which leads out of the folder.
-/

namespace Climbing

/-- A template with one field. -/
def template : Pdf.Document where
  objects := [(1, .dict [("AcroForm", .ref 2)]), (2, .dict [("Fields", .arr [.ref 3])]),
    (3, .dict [("FT", .name "Tx"), ("T", .bytes .literal [120])])]
  trailer := [("Root", .ref 1)]

def tree : FileTree :=
  [(["files", "forms", "a.pdf"], .file (.form template)), (["r.json"], .file (.text "[]"))]

/-- The files before any form is in work. -/
def start : FileTree × Pdf.Form := (tree, ⟨⟨[], []⟩, [], .inCatalog 0⟩)

def settings : CreatePdf := ⟨⟨none, "a/../../b"⟩, ⟨"./forms//a.pdf", none⟩, [("x", true)]⟩

def pool : Pool := [("a", .var ⟨"1", "a/../../b", "o", [("x", .str "new")]⟩)]

/-- The records lie among the same files, and the clock shows one. -/
def collaborators : Collaborators (FileTree × Pdf.Form) Unit :=
  .withStore (RecordStore.file "r.json") (fun _ _ _ => pure (.error (.unsupportedOperator "?")))
    { send := fun _ => pure (.ok ()), request := fun _ => pure (.error (.timeout ""))
      openForm := fun _ => pure (.ok ()), setTextField := fun _ _ => pure (.ok ())
      flatten := pure (.ok ()), save := pure (.ok ()), store := fun _ _ => pure (.ok ())
      stamp := pure "1" }

def desk : Desk (FileTree × Pdf.Form) := ⟨onOutside get, fun form => onOutside (set form)⟩

def access : FileAccess (FileTree × Pdf.Form) where
  read path := onRecords (FileTree.access.read path)
  makeFolder path := onRecords (FileTree.access.makeFolder path)
  write path content := onRecords (FileTree.access.write path content)

end Climbing

section ClimbingName

open Climbing

/-- The name of the form is refused, yet its template has been read by then. -/
theorem Collaborators.template_is_read_before_refusal :
    let noted := collaborators.withNotedForms desk access "files"
    Pdf.Folder.resolve? "files" (settings.fileName (collaborators.stamp.run start).1) = none ∧
      ((noted.createPdf settings pool).run (start, [])).1 = .failed ∧
      ((noted.createPdf settings pool).run (start, [])).2.2 = [.read "files/./forms//a.pdf"] :=
  ⟨by decide, rfl, by decide +kernel⟩

/-- A template is read below the folder although its name has a `.` and an empty part. The form of a
variable whose name climbs out is refused: its template is found, and nothing else is asked of the
files. -/
theorem Collaborators.climbing_variable_makes_no_form :
    let plain := collaborators.withForms desk access "files"
    let noted := collaborators.withNotedForms desk access "files"
    "files" ≠ "" ∧
    components "files/./forms//a.pdf" =
      [.normal "files", .normal "forms", .normal "a.pdf"] ∧
    ((plain.openForm settings.template.path).run start).1 = .ok () ∧
    ((noted.openForm settings.template.path).run (start, [])).2.2 =
      [.read "files/./forms//a.pdf"] ∧
    Pdf.Folder.resolve? "files" "1_a/../../b.pdf" = none ∧
    (noted.createPdf settings pool).run (start, []) =
      (.failed, (((plain.createPdf settings pool).run start).2, [.read "files/./forms//a.pdf"])) := by
  intro plain noted
  have hfolder : "files" ≠ "" := by decide
  have htemplate : Pdf.Folder.resolve? "files" settings.template.path =
      some "files/./forms//a.pdf" := by decide
  have hrefused : Pdf.Folder.resolve? "files" "1_a/../../b.pdf" = none := by decide
  obtain ⟨-, hcomponents, hruns⟩ := forms_stay_in_folder hfolder
  obtain ⟨-, hresolved, -, -, houtput⟩ := hruns collaborators desk access
  obtain ⟨uses, hrun, -⟩ := houtput settings pool (fun _ => hrefused) start
  refine ⟨hfolder, ?_, rfl, (hresolved _ _ htemplate start Climbing.template).1, hrefused, ?_⟩
  · rw [(hcomponents _ _ htemplate).1]
    decide
  · have hread : ((noted.createPdf settings pool).run (start, [])).2.2 =
        [.read "files/./forms//a.pdf"] := by decide +kernel
    rw [hrun, ← hread, hrun]

end ClimbingName

end Stepwise
