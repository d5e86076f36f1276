import Stepwise.Condition

/-!
# What a step is to do

The settings of the five types of step that run nothing inside them. Each has a written form, an
object that may leave out what has a default.
-/

namespace Stepwise

/-! ## Updating a record -/

/-- Set a field of a record to a value. -/
structure FieldAssignment where
  field : String
  value : Json
  deriving BEq

namespace FieldAssignment

def toJson (a : FieldAssignment) : Json :=
  .obj [("text", .str a.field), ("value", a.value)]

def decode : Json → Except DecodeError FieldAssignment :=
  Json.decodeRecord "FieldAssignment" ["text", "value"] fun fields =>
    mk <$> fields.required "text" Json.decodeText
      <*> fields.withDefault "value" Json.decodeAny .null

end FieldAssignment

/-- Set fields of the record behind a variable, one after another. -/
structure UpdateRecord where
  target : VariableSelector
  fields : List FieldAssignment
  deriving BEq

namespace UpdateRecord

def toJson (m : UpdateRecord) : Json :=
  .obj [("variable", m.target.toJson), ("fields", .arr (m.fields.map FieldAssignment.toJson))]

def decode : Json → Except DecodeError UpdateRecord :=
  Json.decodeRecord "UpdateRecordMeta" ["variable", "fields"] fun fields =>
    mk <$> fields.required "variable" VariableSelector.decode
      <*> fields.withDefault "fields" (Json.decodeList FieldAssignment.decode) []

end UpdateRecord

/-! ## Filling a form -/

/-- The name of the variable that a form takes its values from. -/
structure SourceSelector where
  text : Option String
  value : String
  deriving BEq

namespace SourceSelector

def toJson (s : SourceSelector) : Json :=
  .obj (optionalMember "text" s.text ++ [("value", .str s.value)])

def decode : Json → Except DecodeError SourceSelector :=
  Json.decodeRecord "SourceSelector" ["text", "value"] fun fields =>
    mk <$> fields.withDefault "text" (Json.decodeOptional Json.decodeText) none
      <*> fields.required "value" Json.decodeText

end SourceSelector

/-- A template by its path below the directory of files. -/
structure TemplateRef where
  path : String
  name : Option String
  deriving BEq

namespace TemplateRef

def toJson (t : TemplateRef) : Json :=
  .obj ([("path", .str t.path)] ++ optionalMember "name" t.name)

def decode : Json → Except DecodeError TemplateRef :=
  Json.decodeRecord "TemplateRef" ["path", "name"] fun fields =>
    mk <$> fields.required "path" Json.decodeText
      <*> fields.withDefault "name" (Json.decodeOptional Json.decodeText) none

end TemplateRef

/-- Fill the fields of a template that are marked, from a variable. -/
structure CreatePdf where
  source : SourceSelector
  template : TemplateRef
  fields : Ordered Bool
  deriving BEq

namespace CreatePdf

def toJson (m : CreatePdf) : Json :=
  .obj [("object", m.source.toJson), ("template", m.template.toJson),
    ("fields", .obj (m.fields.map fun f => (f.1, .bool f.2)))]

def decode : Json → Except DecodeError CreatePdf :=
  Json.decodeRecord "CreatePdfMeta" ["object", "template", "fields"] fun fields =>
    mk <$> fields.required "object" SourceSelector.decode
      <*> fields.required "template" TemplateRef.decode
      <*> fields.withDefault "fields" (Json.decodeMap Json.decodeTruth) []

end CreatePdf

/-! ## Sending mail -/

/-- How the recipient of a message is given: by a variable, or literally, which is also the
meaning of any other word. -/
inductive RecipientKind where
  | ofVariable
  | literal
  deriving DecidableEq, Repr

namespace RecipientKind

def name : RecipientKind → String
  | ofVariable => "variable"
  | literal => "literal"

def ofName (text : String) : RecipientKind :=
  if text = "variable" then ofVariable else literal

def decode : Json → Except DecodeError RecipientKind :=
  Json.decodeChoice fun text => .ok (ofName text)

end RecipientKind

/-- The recipient of a message. -/
structure EmailRecipient where
  kind : RecipientKind
  value : Json
  deriving BEq

namespace EmailRecipient

/-- A recipient given by an address. -/
def ofAddress (address : String) : EmailRecipient :=
  ⟨.literal, .str address⟩

def toJson (r : EmailRecipient) : Json :=
  .obj [("type", .str r.kind.name), ("value", r.value)]

def decode : Json → Except DecodeError EmailRecipient :=
  Json.decodeRecord "EmailRecipient" ["type", "value"] fun fields =>
    mk <$> fields.withDefault "type" RecipientKind.decode .literal
      <*> fields.withDefault "value" Json.decodeAny .null

/-- The field of a variable that holds the address. -/
def variableField (r : EmailRecipient) : Except DecodeError VariableField :=
  VariableField.decode r.value

/-- The address given literally: a text, a number, or an object with a text under `literal`. -/
def literalAddress? (r : EmailRecipient) : Option String :=
  match r.value with
  | .str address => some address
  | .num n => some n.text
  | .obj members =>
      match Ordered.find? members "literal" with
      | some (.str address) => some address
      | _ => none
  | _ => none

end EmailRecipient

/-- A message to be sent. -/
structure EmailMessage where
  recipient : EmailRecipient
  subject : Option String
  message : Option String
  deriving BEq

namespace EmailMessage

def toJson (m : EmailMessage) : Json :=
  .obj ([("to", m.recipient.toJson)] ++ optionalMember "subject" m.subject ++
    optionalMember "message" m.message)

def decode : Json → Except DecodeError EmailMessage :=
  Json.decodeRecord "EmailMessage" ["to", "subject", "message"] fun fields =>
    mk <$> fields.required "to" EmailRecipient.decode
      <*> fields.withDefault "subject" (Json.decodeOptional Json.decodeText) none
      <*> fields.withDefault "message" (Json.decodeOptional Json.decodeText) none

end EmailMessage

/-- Send a message. -/
structure SendEmail where
  email : EmailMessage
  deriving BEq

namespace SendEmail

def toJson (m : SendEmail) : Json :=
  .obj [("email", m.email.toJson)]

def decode : Json → Except DecodeError SendEmail :=
  Json.decodeRecord "SendEmailMeta" ["email"] fun fields =>
    mk <$> fields.required "email" EmailMessage.decode

end SendEmail

/-! ## Calling an API -/

/-- The method of a request; any other word is a method that is not supported. -/
inductive ApiMethod where
  | get
  | post
  | unsupported
  deriving DecidableEq, Repr

namespace ApiMethod

def name : ApiMethod → String
  | get => "Get"
  | post => "Post"
  | unsupported => "Unsupported"

def ofName (text : String) : ApiMethod :=
  if text = "Get" then get else if text = "Post" then post else unsupported

def decode : Json → Except DecodeError ApiMethod :=
  Json.decodeChoice fun text => .ok (ofName text)

end ApiMethod

/-- Where the value of an entry comes from; only literal entries are sent. -/
inductive EntrySource where
  | literal
  | ofVariable
  | other
  deriving DecidableEq, Repr

namespace EntrySource

def name : EntrySource → String
  | literal => "literal"
  | ofVariable => "variable"
  | other => "other"

def ofName (text : String) : EntrySource :=
  if text = "literal" then literal else if text = "variable" then ofVariable else other

def decode : Json → Except DecodeError EntrySource :=
  Json.decodeChoice fun text => .ok (ofName text)

end EntrySource

/-- An entry of the headers or the body of a request. -/
structure KeyValueEntry where
  source : EntrySource
  key : String
  value : Json
  deriving BEq

namespace KeyValueEntry

/-- An entry that is sent. -/
def ofLiteral (key : String) (value : Json) : KeyValueEntry :=
  ⟨.literal, key, value⟩

def toJson (e : KeyValueEntry) : Json :=
  .obj [("type", .str e.source.name), ("key", .str e.key), ("value", e.value)]

def decode : Json → Except DecodeError KeyValueEntry :=
  Json.decodeRecord "KeyValueEntry" ["type", "key", "value"] fun fields =>
    mk <$> fields.withDefault "type" EntrySource.decode .other
      <*> fields.required "key" Json.decodeText
      <*> fields.withDefault "value" Json.decodeAny .null

end KeyValueEntry

/-- The address, method and body of a request. -/
structure ApiEndpoint where
  url : String
  method : ApiMethod
  body : List KeyValueEntry
  deriving BEq

namespace ApiEndpoint

def toJson (e : ApiEndpoint) : Json :=
  .obj [("url", .str e.url), ("type", .str e.method.name),
    ("body", .arr (e.body.map KeyValueEntry.toJson))]

def decode : Json → Except DecodeError ApiEndpoint :=
  Json.decodeRecord "ApiEndpoint" ["url", "type", "body"] fun fields =>
    mk <$> fields.required "url" Json.decodeText
      <*> fields.withDefault "type" ApiMethod.decode .unsupported
      <*> fields.withDefault "body" (Json.decodeList KeyValueEntry.decode) []

end ApiEndpoint

/-- Call an API. -/
structure ApiCall where
  api : ApiEndpoint
  headers : List KeyValueEntry
  deriving BEq

namespace ApiCall

def toJson (m : ApiCall) : Json :=
  .obj [("api", m.api.toJson), ("headers", .arr (m.headers.map KeyValueEntry.toJson))]

def decode : Json → Except DecodeError ApiCall :=
  Json.decodeRecord "ApiCallMeta" ["api", "headers"] fun fields =>
    mk <$> fields.required "api" ApiEndpoint.decode
      <*> fields.withDefault "headers" (Json.decodeList KeyValueEntry.decode) []

end ApiCall

end Stepwise
