import Stepwise.Text.Pieces

/-!
# Paths

A path is a text whose parts stand between slashes. Empty parts and the part `.` name no step of
their own. A path that starts with a slash is absolute; joined to a base it replaces the base.
-/

namespace Stepwise.Path

/-- The parts of a path that are not empty. -/
def parts (path : String) : List String :=
  ((Text.pieces '/' path.toList).filter fun p => !p.isEmpty).map String.ofList

/-- The parts that name something: those that are neither empty nor `.`. -/
def names (path : String) : List String :=
  (parts path).filter fun p => p != "."

def isAbsolute (path : String) : Bool :=
  path.toList.head? == some '/'

/-- Whether a path ends with a slash, and so can only mean a folder. -/
def endsWithSlash (path : String) : Bool :=
  path.toList.getLast? == some '/'

/-- A path taken from a base: an absolute path stands for itself. -/
def join (base path : String) : String :=
  if isAbsolute path || base == "" then path
  else if endsWithSlash base then base ++ path
  else base ++ "/" ++ path

/-- The last part of a path, unless it leads upwards or nowhere. -/
def fileName? (path : String) : Option String :=
  match (names path).getLast? with
  | none => none
  | some name => if name == ".." then none else some name

/-- A name cut at its last point: the stem, and the extension behind the point. A name has no
extension if its only point comes first. -/
def cutExtension (name : String) : String × Option String :=
  let back := name.toList.reverse
  let extension := back.takeWhile (· != '.')
  match back.drop extension.length with
  | [] => (name, none)
  | _ :: stem =>
      if stem.isEmpty then (name, none)
      else (String.ofList stem.reverse, some (String.ofList extension.reverse))

/-- The extension of the last part of a path. -/
def extension? (path : String) : Option String :=
  (fileName? path).bind fun name => (cutExtension name).2

/-- The path with another name as its last part; `path` ends with that part. -/
def withFileName (path name : String) : String :=
  let last := (path.toList.reverse.takeWhile (· != '/')).length
  String.ofList (path.toList.take (path.toList.length - last)) ++ name

/-- The path without its last part. -/
def parent (path : String) : String :=
  let kept := (path.toList.reverse.dropWhile (· == '/')).dropWhile (· != '/')
  String.ofList (kept.dropWhile (· == '/')).reverse

/-- Whether a path cannot lead out of the folder it is taken from. -/
def staysInside (path : String) : Bool :=
  !isAbsolute path && !(parts path).contains ".."

/-- The path of a file with another extension. -/
def withExtension (path extension : String) : String :=
  match fileName? path with
  | none => path
  | some name => withFileName path ((cutExtension name).1 ++ "." ++ extension)

end Stepwise.Path
