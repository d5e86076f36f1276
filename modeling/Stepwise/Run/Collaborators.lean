import Stepwise.Condition.Evaluate
import Stepwise.Run.Outcome

/-!
# Collaborators

What a run calls on: the evaluation of conditions, the store of records, the mailer, the client of
APIs, the forms that are filled, and the clock that stamps file names. Each is a function on a
state of the collaborators' own, so a run can be followed with any behaviour of theirs. The bytes
of a saved form are a type of the collaborators as well; a run only passes them on.
-/

namespace Stepwise

/-- A message for the mailer; without a sender the mailer puts its own. -/
structure OutgoingEmail where
  recipient : String
  subject : String
  html : String
  sender : Option String
  deriving BEq

/-- Why a message was not sent. -/
inductive MailError where
  | invalidAddress (address reason : String)
  | build (reason : String)
  | transport (reason : String)
  | rejected (reason : String)

/-- The error in words. -/
def MailError.message : MailError → String
  | invalidAddress address reason => "invalid email address '" ++ address ++ "': " ++ reason
  | build reason => "failed to build email message: " ++ reason
  | transport reason => "mail transport error: " ++ reason
  | rejected reason => "mail rejected by server: " ++ reason

/-- The methods that requests are made with. -/
inductive HttpMethod where
  | get
  | post
  deriving DecidableEq

def HttpMethod.name : HttpMethod → String
  | get => "GET"
  | post => "POST"

/-- A request; its body is sent as an object. -/
structure HttpRequest where
  method : HttpMethod
  url : String
  headers : Ordered String
  body : Ordered Json

/-- A reply: its status, and its body as a value. -/
structure HttpResponse where
  status : Nat
  body : Json

/-- Why a request has no reply. -/
inductive HttpError where
  | invalidRequest (reason : String)
  | timeout (reason : String)
  | transport (reason : String)

/-- The error in words. -/
def HttpError.message : HttpError → String
  | invalidRequest reason => "invalid request: " ++ reason
  | timeout reason => "request timed out: " ++ reason
  | transport reason => "network error: " ++ reason

/-- Why a form cannot be opened, filled or written. -/
inductive FormError where
  | templateNotFound (path : String)
  | notAForm (reason : String)
  | fieldNotFound (name : String)
  | malformed (reason : String)
  | io

/-- The error in words. -/
def FormError.message : FormError → String
  | templateNotFound path => "template '" ++ path ++ "' not found"
  | notAForm reason => "template is not a fillable form: " ++ reason
  | fieldNotFound name => "form field '" ++ name ++ "' not found"
  | malformed reason => "malformed document: " ++ reason
  | io => "render I/O error"

/-- What a run calls on, over a state `σ` and with saved forms in `β`. A form is opened, filled
and saved before another one is opened. -/
structure Collaborators (σ β : Type) where
  evaluate : Condition → Pool → StateM σ (Except EvaluationError Evaluation)
  findOne : String → StateM σ (Except StoreError (Option Variable))
  updateOne : String → Variable → StateM σ (Except StoreError Unit)
  send : OutgoingEmail → StateM σ (Except MailError Unit)
  request : HttpRequest → StateM σ (Except HttpError HttpResponse)
  openForm : String → StateM σ (Except FormError Unit)
  setTextField : String → String → StateM σ (Except FormError Unit)
  flatten : StateM σ (Except FormError Unit)
  save : StateM σ (Except FormError β)
  store : String → β → StateM σ (Except FormError Unit)
  stamp : StateM σ String

end Stepwise
