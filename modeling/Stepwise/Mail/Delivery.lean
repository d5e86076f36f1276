import Stepwise.Mail.Message
import Stepwise.Run.Collaborators
import Stepwise.Settings

/-!
# Delivery

How a message is handed to a mail server. A mailer is configured from settings. It reads the
addresses of a message, opens a session, names the sender and the recipient, and sends the message;
the first answer that is not favourable ends the session.
-/

namespace Stepwise.Mail

/-- A mailer that is ready to send. -/
structure Mailer where
  smtp : SmtpSettings
  defaultSender : Mailbox

/-- The mailbox of a text, or why the text is none. -/
def readMailbox (text : String) : Except MailError Mailbox :=
  match Mailbox.ofText text with
  | .ok mailbox => .ok mailbox
  | .error e => .error (.invalidAddress text e.message)

/-- Set up a mailer. Without a sender, one on the host of the server is taken. -/
def Mailer.configure (smtp : SmtpSettings) (sender : Option String) : Except MailError Mailer :=
  (readMailbox (sender.getD ("workline@" ++ smtp.host))).map fun mailbox => ⟨smtp, mailbox⟩

/-- The answer of a server: a code and what it says. -/
structure ServerReply where
  code : Nat
  text : String

/-- The answers of a server to the three parts of a delivery. -/
structure Server where
  toSender : ServerReply
  toRecipient : ServerReply
  toMessage : ServerReply

namespace ServerReply

/-- The failure behind an answer, if it is not favourable. -/
def failure? (reply : ServerReply) : Option MailError :=
  if reply.code < 400 then none
  else if reply.code < 500 then
    some (.transport ("transient error (" ++ toString reply.code ++ "): " ++ reply.text))
  else some (.rejected ("permanent error (" ++ toString reply.code ++ "): " ++ reply.text))

end ServerReply

/-- What came of a delivery, and the lines that the server saw of it. -/
structure Delivery where
  outcome : Except MailError Unit
  seen : List String

namespace Delivery

/-- A delivery that fails before the server sees anything. -/
def unseen (e : MailError) : Delivery := ⟨.error e, []⟩

/-- A failure of the mailer's own. -/
def ownFailure (reason : String) : MailError := .transport ("internal client error: " ++ reason)

end Delivery

namespace Mailer

/-- Why no session can be opened with a server that offers neither secured connections nor
passwords. -/
def sessionFailure? (mailer : Mailer) : Option MailError :=
  if mailer.smtp.tlsMode != .none then
    some (Delivery.ownFailure "STARTTLS is not supported on this server")
  else if mailer.smtp.username.isSome && mailer.smtp.password.isSome then
    some (Delivery.ownFailure "No compatible authentication mechanism was found")
  else none

/-- The message of an email. -/
def message (mailer : Mailer) (email : OutgoingEmail) : Except MailError Message := do
  let sender ← match email.sender with
    | some text => readMailbox text
    | none => .ok mailer.defaultSender
  let recipient ← readMailbox email.recipient
  return ⟨sender, recipient, email.subject, email.html⟩

/-- Whether both addresses can be named in commands. -/
def hasPlainAddresses (m : Message) : Bool :=
  m.sender.address.text.toList.all isAscii && m.recipient.address.text.toList.all isAscii

/-- Hand a message to a server, part by part. -/
def transmit (server : Server) (m : Message) : Delivery :=
  let sender := "MAIL FROM:<" ++ m.sender.address.text ++ ">"
  let recipient := "RCPT TO:<" ++ m.recipient.address.text ++ ">"
  match server.toSender.failure? with
  | some e => ⟨.error e, [sender]⟩
  | none =>
      match server.toRecipient.failure? with
      | some e => ⟨.error e, [sender, recipient]⟩
      | none =>
          let seen := sender :: recipient ::
            m.lines.map fun line => String.ofList (Message.stuffed line)
          match server.toMessage.failure? with
          | some e => ⟨.error e, seen⟩
          | none => ⟨.ok (), seen⟩

/-- Deliver an email. -/
def deliver (mailer : Mailer) (server : Server) (email : OutgoingEmail) : Delivery :=
  match mailer.message email with
  | .error e => .unseen e
  | .ok m =>
      match mailer.sessionFailure? with
      | some e => .unseen e
      | none =>
          if hasPlainAddresses m then transmit server m
          else
            .unseen (Delivery.ownFailure
              "Envelope contains non-ascii chars but server does not support SMTPUTF8")

end Mailer

end Stepwise.Mail
