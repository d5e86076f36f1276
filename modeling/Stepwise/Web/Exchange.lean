import Stepwise.Json.Fragment
import Stepwise.Redaction
import Stepwise.Run.Collaborators
import Stepwise.Text.Base64
import Stepwise.Text.Utf8
import Stepwise.Web.Url

/-!
# Requests and replies

A request as it goes over the wire, and a reply as it is understood. The client has headers of its
own, which stand back behind configured ones of the same name. What an error says about an address
is free of secrets.
-/

namespace Stepwise.Web

/-- A header: its name in lower case, and its value. -/
abbrev Header := String × String

/-- A request on the wire. -/
structure WireRequest where
  line : String
  headers : List Header
  body : String

/-! ## Headers -/

/-- A character of the name of a header. -/
def isNameChar (c : Char) : Bool :=
  c.isAlphanum || "!#$%&'*+-.^_\x60|~".toList.contains c

/-- A character that can stand in the value of a header. -/
def isValueChar (c : Char) : Bool := c == '\t' || (c ≥ ' ' && c != '\x7f')

/-- A header as it was configured, if it is one. -/
def header? (name value : String) : Option Header :=
  if name != "" && name.toList.all isNameChar && value.toList.all isValueChar then
    some (String.ofList (name.toList.map Char.toLower), value)
  else none

/-- The headers with another one, unless there is one of its name. -/
def withDefault (headers : List Header) (header : Header) : List Header :=
  if headers.any fun h => h.1 == header.1 then headers else headers ++ [header]

/-- The headers of every request. -/
def clientHeaders : List Header :=
  [("accept", "application/json, text/plain, */*"), ("user-agent", "workline/0.1.0"),
    ("accept-encoding", "gzip,deflate,br")]

/-- The headers that go with a body. -/
def bodyHeaders (body : String) : List Header :=
  [("content-type", "application/json"), ("content-length", toString body.utf8ByteSize)]

/-- The text behind percent signs, if it is one. -/
def decodedText? (text : String) : Option String :=
  String.fromUTF8? ⟨(percentDecode text.toUTF8.toList).toArray⟩

/-- The header for the credentials of an address. -/
def credentialHeaders (url : Url) : List Header :=
  let user := (decodedText? url.user).filter (· != "")
  let password := url.password.bind decodedText?
  if user.isNone && password.isNone then []
  else
    let pair := user.getD "" ++ ":" ++ password.getD ""
    [("authorization", "Basic " ++ String.ofList (Text.base64 pair.toUTF8.toList))]

/-! ## Requests -/

/-- An error in setting up a request. -/
def setupError (about : Option Url) : HttpError :=
  let place := match about with
    | none => ""
    | some url => " for url (" ++ url.text ++ ")"
  .invalidRequest (Redaction.redact ("builder error" ++ place))

/-- An error in making a request. -/
def sendingError (url : Url) : HttpError :=
  .transport (Redaction.redact ("error sending request for url (" ++ url.text ++ ")"))

/-- The body of a request. One that only asks has a body only if one was configured. -/
def bodyText? (request : HttpRequest) : Option String :=
  if request.method = .get && request.body.isEmpty then none
  else some (Json.obj request.body).compact

/-- The address of a request. -/
def address (request : HttpRequest) : Except HttpError Url :=
  match Url.ofText? request.url with
  | none => .error (setupError none)
  | some url => if url.hasHost then .ok url else .error (setupError (some url))

/-- A request with the headers that were configured for it. -/
def WireRequest.make (url : Url) (request : HttpRequest) (configured : List Header) :
    WireRequest :=
  let body? := bodyText? request
  let added := (body?.map bodyHeaders).getD [] ++ clientHeaders
  let headers := added.foldl withDefault (credentialHeaders url ++ configured)
  { line := request.method.name ++ " " ++ url.target ++ " HTTP/1.1"
    headers := headers.mergeSort fun a b => a.1 ≤ b.1
    body := body?.getD "" }

/-- A request as it goes to an address. -/
def WireRequest.ofRequest (url : Url) (request : HttpRequest) : Except HttpError WireRequest :=
  match request.headers.mapM fun h => header? h.1 h.2 with
  | none => .error (setupError none)
  | some configured =>
      if url.isWeb then .ok (WireRequest.make url request configured)
      else .error (setupError (some url.anonymous))

/-! ## Replies -/

/-- The value of the text of a reply: nothing when it is blank, the value it spells in JSON, and
else the text itself. -/
def replyValue (text : String) : Json :=
  if Text.isBlankText text then .null
  else
    match Json.parse? text with
    | some v => v.normal
    | none => .str text

/-- The statuses of replies that have no body. -/
def bodiless : List Nat := [204, 304]

/-- A reply of bytes. -/
def responseOf (status : Nat) (bytes : List UInt8) : HttpResponse :=
  ⟨status, replyValue (Text.ofBytesLossy (if bodiless.contains status then [] else bytes))⟩

/-! ## Exchanges -/

/-- What is sent, and what comes of it. -/
structure Exchange where
  sent : Option WireRequest
  outcome : Except HttpError HttpResponse

/-- Make a request, given what answers at an address. -/
def exchange (answer : Url → Option (Nat × List UInt8)) (request : HttpRequest) : Exchange :=
  match address request with
  | .error e => ⟨none, .error e⟩
  | .ok url =>
      match WireRequest.ofRequest url request with
      | .error e => ⟨none, .error e⟩
      | .ok sent =>
          match answer url with
          | none => ⟨none, .error (sendingError url.anonymous)⟩
          | some (status, bytes) => ⟨some sent, .ok (responseOf status bytes)⟩

end Stepwise.Web
