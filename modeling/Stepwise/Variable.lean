import Stepwise.Decode.InOrder

/-!
# Variables

A variable is a record as a run sees it: the identifier of the stored record, its own name, the
collection it belongs to, and its fields in order. Identifiers are texts; a number, an object that
holds an `$oid` and `null` are taken as identifiers too.
-/

namespace Stepwise

/-- A record, as stored and as seen by the steps of a run. -/
structure Variable where
  id : String
  name : String
  object : String
  data : Ordered Json
  deriving BEq

namespace Variable

/-- A record without fields. -/
def new (id name object : String) : Variable :=
  ⟨id, name, object, []⟩

/-- The value of a field. -/
def field? (v : Variable) (field : String) : Option Json :=
  v.data.find? field

/-- Set a field, in place when it is present. -/
def withField (v : Variable) (field : String) (value : Json) : Variable :=
  { v with data := v.data.set field value }

def toJson (v : Variable) : Json :=
  .obj [("_id", .str v.id), ("name", .str v.name), ("object", .str v.object), ("data", .obj v.data)]

/-- The identifier a value stands for. -/
def decodeIdentifier (v : Json) : Except DecodeError String :=
  match v.normal with
  | .str id => .ok id
  | .num n => .ok n.text
  | .null => .ok ""
  | .obj members =>
      match Ordered.find? members "$oid" with
      | some (.str id) => .ok id
      | _ => .error .badIdentifierObject
  | other => .error (.badIdentifier other)

def knownFields : List String := ["_id", "name", "object", "data"]

/-- The fields of a record, by how an identifier, a text and the data are read. -/
def form {β : Type} (identifier text : β → Except DecodeError String)
    (data : β → Except DecodeError (Ordered Json)) (fields : Fields β) : Form Variable :=
  mk <$> fields.withDefault "_id" identifier ""
    <*> fields.withDefault "name" text ""
    <*> fields.withDefault "object" text ""
    <*> fields.withDefault "data" data []

def decode : Json → Except DecodeError Variable :=
  Json.decodeRecord "Variable" knownFields
    (form decodeIdentifier Json.decodeText (Json.decodeMap Json.decodeAny))

/-- Decode a record in the order of its text. -/
def decodeInOrder : Fragment → Except DecodeError Variable :=
  Fragment.decodeRecord "Variable" knownFields
    (form (Fragment.decodeWhole decodeIdentifier) (Fragment.decodePlain Json.decodeText)
      Fragment.decodeMap)

end Variable

/-! ## References to variables -/

/-- The variable picked in a form: its key in the pool and the collection it belongs to. -/
structure VariableHandle where
  name : String
  object : Option String
  deriving BEq

/-- A picked variable with the text shown for it. -/
structure VariableSelector where
  text : Option String
  value : VariableHandle
  deriving BEq

/-- A variable named by its key in the pool, directly or as picked in a form. -/
inductive VariableReference where
  | named (name : String)
  | selected (selector : VariableSelector)
  deriving BEq

/-- A field of a variable in the pool. -/
structure VariableField where
  reference : VariableReference
  field : String
  deriving BEq

/-- A member that is left out when there is no value. -/
def optionalMember (key : String) (value : Option String) : List (String × Json) :=
  match value with
  | none => []
  | some s => [(key, .str s)]

namespace VariableHandle

def toJson (h : VariableHandle) : Json :=
  .obj ([("name", .str h.name)] ++ optionalMember "object" h.object)

def decode : Json → Except DecodeError VariableHandle :=
  Json.decodeRecord "VariableHandle" ["name", "object"] fun fields =>
    mk <$> fields.required "name" Json.decodeText
      <*> fields.withDefault "object" (Json.decodeOptional Json.decodeText) none

end VariableHandle

namespace VariableSelector

def toJson (s : VariableSelector) : Json :=
  .obj (optionalMember "text" s.text ++ [("value", s.value.toJson)])

def decode : Json → Except DecodeError VariableSelector :=
  Json.decodeRecord "VariableSelector" ["text", "value"] fun fields =>
    mk <$> fields.withDefault "text" (Json.decodeOptional Json.decodeText) none
      <*> fields.required "value" VariableHandle.decode

end VariableSelector

namespace VariableReference

/-- The key in the pool. -/
def key : VariableReference → String
  | named name => name
  | selected selector => selector.value.name

def toJson : VariableReference → Json
  | named name => .obj [("name", .str name)]
  | selected selector => .obj [("name", selector.toJson)]

/-- The `name` of a reference: a text, or a picked variable. -/
def decodeName : Json → Except DecodeError VariableReference
  | .str name => .ok (named name)
  | v => (VariableSelector.decode v).map selected

/-- A reference is a map; whatever is wrong with it, it is no reference. -/
def decode (v : Json) : Except DecodeError VariableReference :=
  match v with
  | .obj members =>
      let read := Json.decodeMembers ["name"] (fun fields => fields.required "name" decodeName)
      match read members with
      | .ok reference => .ok reference
      | .error _ => .error (.noMatch "VariableReference")
  | _ => .error (.noMatch "VariableReference")

end VariableReference

namespace VariableField

def toJson (f : VariableField) : Json :=
  .obj [("variable", f.reference.toJson), ("field", .str f.field)]

def decode : Json → Except DecodeError VariableField :=
  Json.decodeRecord "VariableField" ["variable", "field"] fun fields =>
    mk <$> fields.required "variable" VariableReference.decode
      <*> fields.required "field" Json.decodeText

end VariableField

end Stepwise
