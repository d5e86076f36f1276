import Stepwise.Files.Tree
import Stepwise.Store.Memory

/-!
# Records in a file

A file that holds a list of records as JSON. A missing or blank file holds none. Every call reads
the file; an update writes all records again, through a second file next to the first that then
takes its place.
-/

namespace Stepwise.RecordFile

/-- The fault of a document behind the error of its decoding: a text with a fault of its own has no
further explanation. -/
def faultOf (text : String) (e : DecodeError) : DocumentFault :=
  if (Json.parse? text).isNone then .malformed else .shape .source e

/-- The records of a text. -/
def ofText (path text : String) : Except StoreError (List Variable) :=
  if Text.isBlankText text then .ok []
  else
    match Fragment.decodeDocument (Fragment.decodeList Variable.decodeInOrder) (faultOf text) text
      with
    | .ok records => .ok records
    | .error fault => .error (.decode path fault)

/-- The records in the file at a path. -/
def read (files : FileTree) (path : String) : Except StoreError (List Variable) :=
  match files.readText path with
  | .ok text => ofText path text
  | .error .missing => .ok []
  | .error .unusable => .error (.io path)

/-- The text of records. -/
def toText (records : List Variable) : String :=
  (Json.arr (records.map Variable.toJson)).pretty

/-- The path under which new content is written before it takes the place of the file. -/
def draftPath (path : String) : String :=
  Path.withExtension path "json.tmp"

/-- Put new content in the place of the file. -/
def replaceContent (files : FileTree) (path text : String) : Except FileFault FileTree :=
  match files.write (draftPath path) (.text text) with
  | .error e => .error e
  | .ok drafted =>
      match drafted.write path (.text text) with
      | .error e => .error e
      | .ok written => .ok ((written.remove? (draftPath path)).getD written)

/-- The first record with an identifier. -/
def findOne (records : List Variable) (id : String) : Option Variable :=
  records.find? fun r => r.id == id

/-- The records with the first one that has an identifier replaced, if there is one. -/
def replaceFirst (id : String) (record : Variable) : List Variable → Option (List Variable)
  | [] => none
  | r :: rest =>
      if r.id == id then some (record :: rest)
      else (replaceFirst id record rest).map (r :: ·)

/-- Replace the first record with an identifier. -/
def update (files : FileTree) (path id : String) (record : Variable) :
    Except StoreError FileTree :=
  match read files path with
  | .error e => .error e
  | .ok records =>
      match replaceFirst id record records with
      | none => .error (.recordNotFound id)
      | some records =>
          match replaceContent files path (toText records) with
          | .error _ => .error (.io path)
          | .ok files => .ok files

end Stepwise.RecordFile
