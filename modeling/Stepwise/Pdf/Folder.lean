import Stepwise.Files.Access
import Stepwise.Text.Blank

/-!
# Forms in a folder

Templates are read from a folder, and filled forms are stored in it. A name counts only if it is
not blank and cannot lead out of the folder. The folder in which a form is stored is made first, and
stays when the form cannot be written.
-/

namespace Stepwise.Pdf.Folder

/-- The path of a name in the folder. -/
def resolve? (folder name : String) : Option String :=
  if Path.staysInside name && !Text.isBlankText name then some (Path.join folder name) else none

variable {φ : Type}

/-- Open a template. -/
def openForm (files : FileAccess φ) (folder name : String) : StateM φ (Except FormError Form) :=
  match resolve? folder name with
  | none => return .error (.templateNotFound name)
  | some path => do
      match ← files.read path with
      | .ok content => return Form.ofSource content.source
      | .error .missing => return .error (.templateNotFound path)
      | .error .unusable => return .error .io

/-- Store a filled form. -/
def store (files : FileAccess φ) (folder name : String) (document : Document) :
    StateM φ (Except FormError Unit) :=
  match resolve? folder name with
  | none => return .error (.malformed ("invalid output file name '" ++ name ++ "'"))
  | some path => do
      match ← files.makeFolder (Path.parent path) with
      | .error _ => return .error .io
      | .ok () =>
          match ← files.write path (.form document) with
          | .error _ => return .error .io
          | .ok () => return .ok ()

end Stepwise.Pdf.Folder
