import Stepwise.Files.Tree
import Stepwise.Ordered
import Stepwise.Workflow.Document

/-!
# Workflows in files

Workflows are read from the documents of a folder, in the order of the names of the files. Of two
workflows with one name the first counts. A single file that cannot be read makes the folder
unreadable; a folder that does not exist holds no workflows.
-/

namespace Stepwise.WorkflowFolder

/-- The workflows in the file at a path. -/
def load (files : FileTree) (path : String) : Except StoreError (List Workflow) :=
  match files.readText path with
  | .error _ => .error (.io path)
  | .ok text =>
      match Workflow.ofText text with
      | .ok workflows => .ok workflows
      | .error fault => .error (.decode path fault)

/-- The extensions of files with workflows. -/
def extensions : List String := ["json", "yaml", "yml"]

/-- Whether a file is one with workflows. -/
def isWorkflowFile (name : String) : Bool :=
  match Path.extension? name with
  | none => false
  | some extension => extensions.contains extension

/-- The files with workflows among the names in a folder, in order. The names themselves may be
listed in any order. -/
def documents (names : List String) : List String :=
  (names.filter isWorkflowFile).mergeSort fun a b => a ≤ b

/-- Workflows in order, those left out whose name occurred before. -/
def firstOfEach (seen : List String) : List Workflow → List Workflow
  | [] => []
  | w :: rest =>
      if seen.contains w.name then firstOfEach seen rest
      else w :: firstOfEach (w.name :: seen) rest

/-- The workflows of files, one file after another. -/
def readAll (files : FileTree) : List String → Except StoreError (List Workflow)
  | [] => .ok []
  | path :: rest =>
      match load files path with
      | .error e => .error e
      | .ok workflows => (readAll files rest).map (workflows ++ ·)

/-- The workflows of a folder. -/
def list (files : FileTree) (folder : String) : Except StoreError (List Workflow) :=
  if files.has folder then
    match files.list folder with
    | .error _ => .error (.io folder)
    | .ok names =>
        (readAll files ((documents names).map (Path.join folder))).map (firstOfEach [])
  else .ok []

/-- The workflow of a folder with a name. -/
def find (files : FileTree) (folder name : String) : Except StoreError (Option Workflow) :=
  (list files folder).map fun workflows => workflows.find? fun w => w.name == name

end Stepwise.WorkflowFolder
