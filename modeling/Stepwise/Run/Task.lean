import Stepwise.Workflow
import Stepwise.Run.Collaborators

/-!
# Performing a task

Each task makes its calls in a fixed order and ends in an outcome; no failure of a collaborator
does more than fail the task. A task reads the pool and never writes it.
-/

namespace Stepwise

namespace Json

/-- A value as the text that is sent or printed: a text as it is, `null` as nothing. -/
def fieldText : Json → String
  | str s => s
  | null => ""
  | v => v.compact

end Json

namespace KeyValueEntry

/-- The entries that are sent. -/
def literals (entries : List KeyValueEntry) : List KeyValueEntry :=
  entries.filter fun e => e.source == .literal

/-- The headers of a request: each value as a text. -/
def headers (entries : List KeyValueEntry) : Ordered String :=
  Ordered.ofPairs ((literals entries).map fun e => (e.key, e.value.fieldText))

/-- The body of a request: each value as it is. -/
def body (entries : List KeyValueEntry) : Ordered Json :=
  Ordered.ofPairs ((literals entries).map fun e => (e.key, e.value))

end KeyValueEntry

namespace ApiCall

/-- The request of a call; a method that is not supported makes none. -/
def request? (call : ApiCall) : Option HttpRequest :=
  let make := fun method =>
    { method, url := call.api.url, headers := KeyValueEntry.headers call.headers
      body := KeyValueEntry.body call.api.body : HttpRequest }
  match call.api.method with
  | .get => some (make .get)
  | .post => some (make .post)
  | .unsupported => none

end ApiCall

namespace EmailMessage

/-- The message as it is shown to the reader. -/
def html (message : EmailMessage) : String :=
  "<p> " ++ message.message.getD "" ++ ",</p>"

/-- The address of a text; blank texts are none. -/
def addressOf? (text : String) : Option String :=
  let address := Text.trim text
  if address = "" then none else some address

/-- The text a recipient stands for: a field of a variable that is a text or a number, or the
literal address. -/
def recipientText? (recipient : EmailRecipient) (pool : Pool) : Option String :=
  match recipient.kind with
  | .literal => recipient.literalAddress?
  | .ofVariable =>
      match recipient.variableField with
      | .error _ => none
      | .ok f =>
          match (pool.variableAt? f.reference.key).bind fun v => v.field? f.field with
          | some (.str s) => some s
          | some (.num n) => some n.text
          | _ => none

/-- The message for the mailer, if its recipient has an address. -/
def outgoing? (message : EmailMessage) (pool : Pool) : Option OutgoingEmail :=
  ((recipientText? message.recipient pool).bind addressOf?).map fun address =>
    ⟨address, message.subject.getD "", message.html, none⟩

end EmailMessage

namespace CreatePdf

/-- The fields to fill with their texts, in the order of the settings: those that are marked and
that the source has. -/
def entries (settings : CreatePdf) (source : Variable) : List (String × String) :=
  settings.fields.filterMap fun field =>
    if field.2 then (source.field? field.1).map fun v => (field.1, v.fieldText) else none

/-- The name of the file for a stamp. -/
def fileName (settings : CreatePdf) (stamp : String) : String :=
  stamp ++ "_" ++ settings.source.value ++ ".pdf"

end CreatePdf

namespace UpdateRecord

/-- The record with all assignments made in turn. -/
def applyTo (settings : UpdateRecord) (record : Variable) : Variable :=
  settings.fields.foldl (fun r a => r.withField a.field a.value) record

end UpdateRecord

variable {σ β : Type}

namespace Collaborators

/-- Set the fields of the open form one after another; one that cannot be set is passed over. -/
def fillFields (c : Collaborators σ β) : List (String × String) → StateM σ Unit
  | [] => pure ()
  | (name, text) :: rest => do
      let _ ← c.setTextField name text
      fillFields c rest

/-- Look a record up: a record or a true answer is the value of the step. -/
def findRecord (c : Collaborators σ β) (condition : Condition) (pool : Pool) :
    StateM σ StepOutcome := do
  match ← c.evaluate condition pool with
  | .error _ => return .failed
  | .ok evaluation => return if evaluation.truthy then .succeeded evaluation.toEntry else .failed

/-- Read the stored record behind a variable, assign fields, and write it back. -/
def updateRecord (c : Collaborators σ β) (settings : UpdateRecord) (pool : Pool) :
    StateM σ StepOutcome :=
  match pool.variableAt? settings.target.value.name with
  | none => pure .failed
  | some v => do
      match ← c.findOne v.id with
      | .error _ => return .failed
      | .ok none => return .failed
      | .ok (some record) =>
          let updated := settings.applyTo record
          match ← c.updateOne v.id updated with
          | .error _ => return .failed
          | .ok () => return .succeeded (.var updated)

/-- Send a message, if it has a recipient. -/
def sendEmail (c : Collaborators σ β) (settings : SendEmail) (pool : Pool) :
    StateM σ StepOutcome :=
  match settings.email.outgoing? pool with
  | none => pure .failed
  | some email => do
      match ← c.send email with
      | .error _ => return .failed
      | .ok () => return .ofValue (.bool true)

/-- Make a request; only a reply with status 200 counts. -/
def callApi (c : Collaborators σ β) (call : ApiCall) : StateM σ StepOutcome :=
  match call.request? with
  | none => pure .failed
  | some request => do
      match ← c.request request with
      | .error _ => return .failed
      | .ok response => return if response.status = 200 then .ofValue response.body else .failed

/-- Lock, save and store the open form. -/
def finishForm (c : Collaborators σ β) (settings : CreatePdf) : StateM σ StepOutcome := do
  match ← c.flatten with
  | .error _ => return .failed
  | .ok () =>
      match ← c.save with
      | .error _ => return .failed
      | .ok bytes =>
          let stamp ← c.stamp
          let name := settings.fileName stamp
          match ← c.store name bytes with
          | .error _ => return .failed
          | .ok () => return .ofValue (.obj [("file", .str name)])

/-- Fill a template from a variable and store the filled form. -/
def createPdf (c : Collaborators σ β) (settings : CreatePdf) (pool : Pool) :
    StateM σ StepOutcome :=
  match Pool.variableNamed? pool settings.source.value with
  | none => pure .failed
  | some source => do
      match ← c.openForm settings.template.path with
      | .error _ => return .failed
      | .ok () =>
          c.fillFields (settings.entries source)
          c.finishForm settings

/-- Perform a task of a step about a collection. -/
def perform (c : Collaborators σ β) (object : String) (task : Task) (pool : Pool) :
    StateM σ StepOutcome :=
  match task with
  | .findRecord condition => c.findRecord (condition.within object) pool
  | .createPdf settings => c.createPdf settings pool
  | .sendEmail settings => c.sendEmail settings pool
  | .apiCall call => c.callApi call
  | .updateRecord settings => c.updateRecord settings pool

end Collaborators

end Stepwise
