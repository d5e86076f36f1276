import Stepwise.Pdf.Folder
import Stepwise.Rehearsal.Call
import Stepwise.Run
import Stepwise.Store.RecordFile

/-!
# Rehearsals

Collaborators whose every answer is known: records in memory or in a file, conditions evaluated
over them or answered from a list, replies to messages and requests from lists, and forms that are
sheets of texts or documents in a folder. A rehearsal keeps a journal of all calls; a call of a
kind that is set to fail is noted first.
-/

namespace Stepwise

/-- Replies that are given one after another, and the one that is given from then on. -/
structure Replies (α : Type) where
  first : List α
  later : α

/-- The next reply, and those after it. -/
def Replies.next {α : Type} (r : Replies α) : α × Replies α :=
  match r.first with
  | [] => (r.later, r)
  | a :: rest => (a, { r with first := rest })

/-- Where records are kept. -/
inductive RecordKeeping where
  | table (records : RecordTable)
  | file (path : String)

/-- Who answers requests. -/
inductive RequestScript where
  | replies (script : Replies (Except HttpError HttpResponse))
  /-- Every request succeeds and is answered with what it said. -/
  | echo

/-- Where forms come from. -/
inductive FormScript where
  /-- Every template is a sheet with any field. -/
  | sheets
  /-- Sheets with the given fields. -/
  | listed (templates : Ordered (List String))
  /-- Documents in a folder. -/
  | folder (path : String)

/-- A form in work. -/
inductive OpenForm where
  /-- A sheet of texts; a free one takes fields of any name. -/
  | sheet (texts : Ordered String) (free : Bool)
  | document (form : Pdf.Form)

/-- A saved form. -/
inductive SavedForm where
  | sheet (text : String)
  | document (document : Pdf.Document)

/-- What the journal shows of a saved form. -/
def SavedForm.content : SavedForm → Json
  | sheet text => .str text
  | document d =>
      match Pdf.Form.ofDocument d with
      | .ok form => form.summary
      | .error _ => .null

/-- The state of the collaborators. -/
structure Rehearsal where
  files : FileTree
  records : RecordKeeping
  /-- Answers to conditions; without any, conditions are evaluated over the records. -/
  evaluations : Option (Replies (Except EvaluationError Evaluation))
  mail : Replies (Except MailError Unit)
  requests : RequestScript
  forms : FormScript
  /-- The names of the calls that fail. -/
  failing : List String
  /-- What the clock shows. -/
  time : String
  form : OpenForm
  /-- The calls, the latest first. -/
  journal : List Call

namespace Rehearsal

/-- A rehearsal with the given records in which everything succeeds. -/
def smooth (files : FileTree) (records : RecordKeeping) (time : String) : Rehearsal where
  files := files
  records := records
  evaluations := none
  mail := ⟨[], .ok ()⟩
  requests := .echo
  forms := .sheets
  failing := []
  time := time
  form := .sheet [] true
  journal := []

/-- The calls in the order in which they were made. -/
def calls (r : Rehearsal) : List Call := r.journal.reverse

/-! ## Records -/

/-- All records, in order. -/
def allRecords (r : Rehearsal) : Except StoreError (List Variable) :=
  match r.records with
  | .table records => .ok records.values
  | .file path => RecordFile.read r.files path

/-- Look a record up by its identifier. -/
def record? (r : Rehearsal) (id : String) : Except StoreError (Option Variable) :=
  match r.records with
  | .table records => .ok (records.find? id)
  | .file path => (RecordFile.read r.files path).map fun records => RecordFile.findOne records id

/-- Replace the record with an identifier. -/
def replaceRecord (r : Rehearsal) (id : String) (record : Variable) :
    Except StoreError Rehearsal :=
  match r.records with
  | .table records => (records.update id record).map fun t => { r with records := .table t }
  | .file path => (RecordFile.update r.files path id record).map fun f => { r with files := f }

/-- The records of a collection, or all of them. -/
def recordsOf (r : Rehearsal) (object : Option String) : Except StoreError (List Variable) :=
  r.allRecords.map (RecordTable.list.inCollection object)

/-! ## Calls -/

/-- The failure of a call that is set to fail. -/
def setToFail : StoreError := .io ""

/-- Note a call; the answer says whether it is set to fail. -/
def note (call : Call) : StateM Rehearsal Bool := do
  let r ← get
  set { r with journal := call :: r.journal }
  return r.failing.contains call.name

def findOne (id : String) : StateM Rehearsal (Except StoreError (Option Variable)) := do
  if ← note (.findOne id) then return .error setToFail
  return (← get).record? id

def updateOne (id : String) (record : Variable) : StateM Rehearsal (Except StoreError Unit) := do
  if ← note (.updateOne id record) then return .error setToFail
  match (← get).replaceRecord id record with
  | .error e => return .error e
  | .ok next => do
      set next
      return .ok ()

def list (object : Option String) : StateM Rehearsal (Except StoreError (List Variable)) := do
  if ← note (.list object) then return .error setToFail
  return (← get).recordsOf object

def evaluate (condition : Condition) (pool : Pool) :
    StateM Rehearsal (Except EvaluationError Evaluation) := do
  let _ ← note (.evaluate condition pool.length)
  let r ← get
  match r.evaluations with
  | none => condition.evaluate list pool
  | some script =>
      let (answer, rest) := script.next
      set { r with evaluations := some rest }
      return answer

def send (email : OutgoingEmail) : StateM Rehearsal (Except MailError Unit) := do
  let _ ← note (.send email)
  let r ← get
  let (answer, rest) := r.mail.next
  set { r with mail := rest }
  return answer

/-- A reply that repeats the request. -/
def echo (request : HttpRequest) : HttpResponse :=
  ⟨200, .obj [("method", .str request.method.name), ("url", .str request.url),
    ("body", .obj request.body)]⟩

def request (request : HttpRequest) : StateM Rehearsal (Except HttpError HttpResponse) := do
  let _ ← note (.request request)
  let r ← get
  match r.requests with
  | .echo => return .ok (echo request)
  | .replies script =>
      let (answer, rest) := script.next
      set { r with requests := .replies rest }
      return answer

/-! ## Forms -/

/-- The form behind a path. -/
def template (r : Rehearsal) (path : String) : Except FormError OpenForm :=
  match r.forms with
  | .sheets => .ok (.sheet [] true)
  | .listed templates =>
      match templates.find? path with
      | none => .error (.templateNotFound path)
      | some fields => .ok (.sheet (Ordered.ofPairs (fields.map fun f => (f, ""))) false)
  | .folder folder =>
      ((Pdf.Folder.openForm FileTree.access folder path).run r.files).1.map .document

def openForm (path : String) : StateM Rehearsal (Except FormError Unit) := do
  let _ ← note (.openForm path)
  let r ← get
  match r.template path with
  | .error e => return .error e
  | .ok form => do
      set { r with form }
      return .ok ()

/-- A form with one field filled. -/
def OpenForm.fill (name text : String) : OpenForm → Except FormError OpenForm
  | .sheet texts free =>
      if free || texts.has name then .ok (.sheet (texts.set name text) free)
      else .error (.fieldNotFound name)
  | .document form => (form.setTextField name text).map .document

/-- A form that is not to be changed any more. -/
def OpenForm.flatten : OpenForm → Except FormError OpenForm
  | .sheet texts free => .ok (.sheet texts free)
  | .document form => form.flatten.map .document

def OpenForm.save : OpenForm → SavedForm
  | .sheet texts _ => .sheet (Json.obj (texts.map fun t => (t.1, .str t.2))).compact
  | .document form => .document form.document

def setTextField (name text : String) : StateM Rehearsal (Except FormError Unit) := do
  if ← note (.setTextField name text) then return .error .io
  let r ← get
  match OpenForm.fill name text r.form with
  | .error e => return .error e
  | .ok form => do
      set { r with form }
      return .ok ()

def flatten : StateM Rehearsal (Except FormError Unit) := do
  if ← note .flatten then return .error .io
  let r ← get
  match OpenForm.flatten r.form with
  | .error e => return .error e
  | .ok form => do
      set { r with form }
      return .ok ()

def save : StateM Rehearsal (Except FormError SavedForm) := do
  if ← note .save then return .error .io
  return .ok (OpenForm.save (← get).form)

/-- Put a saved form among the files; sheets leave none. -/
def keepForm (r : Rehearsal) (name : String) : SavedForm → StateM FileTree (Except FormError Unit)
  | .sheet _ => return .ok ()
  | .document d =>
      match r.forms with
      | .folder folder => Pdf.Folder.store FileTree.access folder name d
      | _ => return .ok ()

def store (name : String) (saved : SavedForm) : StateM Rehearsal (Except FormError Unit) := do
  if ← note (.store name saved.content) then return .error .io
  let r ← get
  let (answer, files) := (r.keepForm name saved).run r.files
  set { r with files }
  return answer

/-- The collaborators of a rehearsal. -/
def collaborators : Collaborators Rehearsal SavedForm where
  evaluate := evaluate
  findOne := findOne
  updateOne := updateOne
  send := send
  request := request
  openForm := openForm
  setTextField := setTextField
  flatten := flatten
  save := save
  store := store
  stamp := return (← get).time

/-- Run a workflow in a rehearsal. -/
def run (r : Rehearsal) (workflow : Workflow) (pool : Pool) : (RunResult × Pool) × Rehearsal :=
  (collaborators.run workflow pool).run r

end Rehearsal

end Stepwise
