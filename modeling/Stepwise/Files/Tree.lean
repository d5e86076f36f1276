import Stepwise.Files.Path
import Stepwise.Ordered
import Stepwise.Pdf.Notation

/-!
# File trees

The files a program sees, as a value: each file and each folder stands under the names that lead
to it from the current folder. A folder is there when it is listed or when something below it is;
the current folder and those above it are always there. An absolute path leads through a folder
whose name is a slash.

A path is walked one part after another. A part that is missing makes the path `missing`; a part
below a file, and a name that no file can have, make it `unusable`.
-/

namespace Stepwise

/-- What a file holds. -/
inductive FileContent where
  | text (value : String)
  | bytes (content : List UInt8)
  | form (document : Pdf.Document)

/-- A file or a folder. -/
inductive FileNode where
  | file (content : FileContent)
  | folder

/-- Why a path cannot be used. -/
inductive FileFault where
  /-- There is nothing at the path. -/
  | missing
  /-- The path cannot be used in the way that was asked for. -/
  | unusable
  deriving DecidableEq

/-- Files and folders under the names that lead to them. -/
abbrev FileTree := List (List String × FileNode)

namespace FileContent

/-- The text of a file, if its bytes are text. -/
def text? : FileContent → Option String
  | text s => some s
  | bytes content => String.fromUTF8? ⟨content.toArray⟩
  | form _ => none

/-- What a file holds for one who looks for a form. -/
def source : FileContent → Pdf.Source
  | text s => .bytes s.toUTF8.toList
  | bytes content => .bytes content
  | form document => .document document

end FileContent

namespace FileTree

/-- Whether names lead to the current folder or to one above it. -/
def isAbove (names : List String) : Bool := names.all (· == "..")

/-- What stands under some names. -/
def node? (tree : FileTree) (names : List String) : Option FileNode :=
  match List.lookup names tree with
  | some node => some node
  | none =>
      if isAbove names || tree.any fun slot => names.isPrefixOf slot.1 then some .folder else none

/-- Put something under some names, in the place of what was there. -/
def put (tree : FileTree) (names : List String) (node : FileNode) : FileTree :=
  match tree with
  | [] => [(names, node)]
  | (known, old) :: rest =>
      if known = names then (names, node) :: rest else (known, old) :: put rest names node

/-- Take a file out. The folder it was in stays. -/
def erase (tree : FileTree) (names : List String) : FileTree :=
  let kept := tree.filter fun slot => slot.1 != names
  if (node? kept names.dropLast).isSome then kept else kept ++ [(names.dropLast, .folder)]

/-- The longest name a file can have, in bytes. -/
def maxNameLength : Nat := 255

/-- Whether a file can have this name. -/
def isUsableName (name : String) : Bool :=
  name.utf8ByteSize ≤ maxNameLength && !name.toList.contains '\x00'

/-- The names of the folder that absolute paths lead from. -/
def rootNames : List String := ["/"]

/-- The names of the folder above one. -/
def above (names : List String) : List String :=
  if names = rootNames then names
  else if isAbove names then names ++ [".."]
  else names.dropLast

/-- Follow the parts of a path from a folder. Only the last part may be missing. -/
def walk (tree : FileTree) (reached : List String) : List String → Except FileFault (List String)
  | [] => .ok reached
  | part :: rest =>
      match node? tree reached with
      | none => .error .missing
      | some (.file _) => .error .unusable
      | some .folder =>
          if part == "." then walk tree reached rest
          else if part == ".." then walk tree (above reached) rest
          else if isUsableName part then walk tree (reached ++ [part]) rest
          else .error .unusable

/-- The names a path leads to, whether or not anything is there. -/
def locate (tree : FileTree) (path : String) : Except FileFault (List String) :=
  if path == "" then .error .missing
  else if Path.isAbsolute path then
    if (Path.names path).isEmpty then .error .unusable
    else walk tree rootNames (Path.parts path)
  else walk tree [] (Path.parts path)

/-- What a path leads to. -/
def find (tree : FileTree) (path : String) : Except FileFault FileNode :=
  match locate tree path with
  | .error e => .error e
  | .ok names =>
      match node? tree names with
      | none => .error .missing
      | some .folder => .ok .folder
      | some (.file content) =>
          if Path.endsWithSlash path then .error .unusable else .ok (.file content)

/-- Whether a path leads anywhere. -/
def has (tree : FileTree) (path : String) : Bool :=
  match find tree path with
  | .ok _ => true
  | .error _ => false

/-- What the file at a path holds. -/
def read (tree : FileTree) (path : String) : Except FileFault FileContent :=
  match find tree path with
  | .error e => .error e
  | .ok .folder => .error .unusable
  | .ok (.file content) => .ok content

/-- The text of the file at a path. -/
def readText (tree : FileTree) (path : String) : Except FileFault String :=
  match read tree path with
  | .error e => .error e
  | .ok content =>
      match content.text? with
      | none => .error .unusable
      | some s => .ok s

/-- Write a file whose folder is there. -/
def write (tree : FileTree) (path : String) (content : FileContent) : Except FileFault FileTree :=
  match locate tree path with
  | .error e => .error e
  | .ok names =>
      if Path.endsWithSlash path then .error .unusable
      else
        match node? tree names.dropLast, node? tree names with
        | none, _ => .error .missing
        | some (.file _), _ => .error .unusable
        | some .folder, some .folder => .error .unusable
        | some .folder, _ => .ok (put tree names (.file content))

/-- Follow the parts of a path from a folder and make the folders that are missing. -/
def makeFolders (tree : FileTree) (reached : List String) :
    List String → Except FileFault FileTree
  | [] => .ok tree
  | part :: rest =>
      if part == "." then makeFolders tree reached rest
      else if part == ".." then makeFolders tree (above reached) rest
      else if isUsableName part then
        let next := reached ++ [part]
        match node? tree next with
        | some (.file _) => .error .unusable
        | some .folder => makeFolders tree next rest
        | none => makeFolders (put tree next .folder) next rest
      else .error .unusable

/-- Make the folder at a path, and those above it. -/
def makeFolder (tree : FileTree) (path : String) : Except FileFault FileTree :=
  makeFolders tree (if Path.isAbsolute path then rootNames else []) (Path.parts path)

/-- Put a file at a path and make the folders that lead to it. -/
def place (tree : FileTree) (path : String) (content : FileContent) : Except FileFault FileTree :=
  (makeFolder tree (Path.parent path)).bind fun made => made.write path content

/-- The names of what stands directly in a folder, in the order in which the tree lists it. -/
def entries (tree : FileTree) (folder : List String) : List String :=
  let below := tree.filterMap fun slot =>
    if folder.isPrefixOf slot.1 then (slot.1.drop folder.length).head? else none
  below.eraseDups

/-- The names in the folder at a path. -/
def list (tree : FileTree) (path : String) : Except FileFault (List String) :=
  match locate tree path with
  | .error e => .error e
  | .ok names =>
      match node? tree names with
      | none => .error .missing
      | some (.file _) => .error .unusable
      | some .folder => .ok (entries tree names)

/-- Take out the file at a path. -/
def remove? (tree : FileTree) (path : String) : Option FileTree :=
  match locate tree path, read tree path with
  | .ok names, .ok _ => some (erase tree names)
  | _, _ => none

end FileTree

end Stepwise
