import Stepwise.Run.Collaborators
import Stepwise.Json.Printer

/-!
# Calls

A call that a run makes of a collaborator, as it stands in the journal of a rehearsal.
-/

namespace Stepwise

/-- A call with what was passed to it. -/
inductive Call where
  | evaluate (condition : Condition) (poolSize : Nat)
  | findOne (id : String)
  | updateOne (id : String) (record : Variable)
  | list (object : Option String)
  | send (email : OutgoingEmail)
  | request (request : HttpRequest)
  | openForm (path : String)
  | setTextField (name text : String)
  | flatten
  | save
  | store (name : String) (content : Json)

namespace Call

/-- The name under which a call stands in the journal. -/
def name : Call → String
  | evaluate _ _ => "evaluate"
  | findOne _ => "find_one"
  | updateOne _ _ => "update_one"
  | list _ => "list"
  | send _ => "mail"
  | request _ => "http"
  | openForm _ => "load"
  | setTextField _ _ => "set_text_field"
  | flatten => "flatten"
  | save => "save"
  | store _ _ => "store"

def optionalText : Option String → Json
  | some s => .str s
  | none => .null

/-- What was passed to a call; composed values as their JSON texts. -/
def arguments : Call → List Json
  | evaluate condition poolSize => [.str condition.toJson.compact, .num (.int poolSize)]
  | findOne id => [.str id]
  | updateOne id record => [.str id, .str record.toJson.compact]
  | list object => [optionalText object]
  | send email =>
      [.str email.recipient, .str email.subject, .str email.html, optionalText email.sender]
  | request r =>
      [.str r.method.name, .str r.url,
        .str (Json.obj (r.headers.map fun h => (h.1, .str h.2))).compact,
        .str (Json.obj r.body).compact]
  | openForm path => [.str path]
  | setTextField name text => [.str name, .str text]
  | flatten => []
  | save => []
  | store name content => [.str name, content]

/-- The line of the journal. -/
def toJson (call : Call) : Json :=
  .arr (.str call.name :: call.arguments)

end Call

end Stepwise
