import Stepwise.Json.Printer
import Stepwise.Pdf.Form

/-!
# Documents written as JSON

A document is an object with `objects` by number and the `trailer`. A name is written as a text, a
string as a `lit` or `hex` of its bytes, a reference as `ref`, a dictionary as `dict`; the other
objects are the JSON values of their kind. Bytes are a text when all of them are ASCII, and a list
of numbers otherwise.
-/

namespace Stepwise.Pdf

/-- The bytes that a value stands for: the UTF-8 form of a text, or a list of numbers. -/
def bytesOfJson : Json → List UInt8
  | .str s => s.toUTF8.toList
  | .arr items => items.filterMap fun v => match v with
      | .num (.int n) => some (UInt8.ofNat n.toNat)
      | _ => none
  | _ => []

def bytesToJson (bytes : List UInt8) : Json :=
  if bytes.all fun b => b.toNat < 128 then
    .str (String.ofList (bytes.map fun b => Char.ofNat b.toNat))
  else .arr (bytes.map fun b => .num (.int b.toNat))

namespace Object

mutual

/-- The object of a value; a value that is no object counts as null. -/
def ofJson : Json → Object
  | .null => null
  | .bool b => bool b
  | .num (.int n) => int n
  | .num (.float _) => null
  | .str s => name s
  | .arr items => arr (ofItems items)
  | .obj [("ref", .num (.int n))] => ref n.toNat
  | .obj [("lit", v)] => bytes .literal (bytesOfJson v)
  | .obj [("hex", v)] => bytes .hexadecimal (bytesOfJson v)
  | .obj [("dict", .obj members)] => dict (ofMembers members)
  | .obj _ => null

def ofItems : List Json → List Object
  | [] => []
  | v :: rest => ofJson v :: ofItems rest

def ofMembers : List (String × Json) → List (String × Object)
  | [] => []
  | (k, v) :: rest => (k, ofJson v) :: ofMembers rest

end

mutual

def toJson : Object → Json
  | null => .null
  | bool b => .bool b
  | int n => .num (.int n)
  | name s => .str s
  | arr items => .arr (toItems items)
  | ref n => .obj [("ref", .num (.int n))]
  | bytes .literal content => .obj [("lit", bytesToJson content)]
  | bytes .hexadecimal content => .obj [("hex", bytesToJson content)]
  | dict entries => .obj [("dict", .obj (toMembers entries))]

def toItems : List Object → List Json
  | [] => []
  | o :: rest => o.toJson :: toItems rest

def toMembers : List (String × Object) → List (String × Json)
  | [] => []
  | (k, o) :: rest => (k, o.toJson) :: toMembers rest

end

end Object

namespace Document

/-- The members of a value; none when it is no object. -/
def membersOf : Json → List (String × Json)
  | .obj members => members
  | _ => []

/-- The document of a value. -/
def ofJson (v : Json) : Document :=
  let numbered := (membersOf ((v.member? "objects").getD .null)).filterMap fun m =>
    m.1.toNat?.map fun n => (n, Object.ofJson m.2)
  ⟨numbered.mergeSort fun a b => a.1 ≤ b.1,
    Object.ofMembers (membersOf ((v.member? "trailer").getD .null))⟩

/-- Each object with its number and its text. -/
def lines (document : Document) : List (Nat × String) :=
  document.objects.map fun slot => (slot.1, slot.2.toJson.compact)

end Document

/-- What a file that should hold a document holds. -/
inductive Source where
  | document (value : Document)
  | bytes (content : List UInt8)

/-- The source of a value: a text or a list of numbers are bytes. -/
def Source.ofJson : Json → Source
  | .str s => bytes s.toUTF8.toList
  | .arr items => bytes (bytesOfJson (.arr items))
  | v => document (Document.ofJson v)

/-- Open the form in a source. -/
def Form.ofSource : Source → Except FormError Form
  | .document d => ofDocument d
  | .bytes content => .error (malformed (faultOfBytes content))

/-- Each field with its value and whether it is read-only. -/
def Form.summary (form : Form) : Json :=
  .arr (form.fields.keys.map fun name =>
    .arr [.str name,
      match form.textValue? name with
      | some text => .str text
      | none => .null,
      .bool (form.isReadOnly name)])

end Stepwise.Pdf
