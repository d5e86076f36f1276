import Stepwise.Mail.Encoding
import Stepwise.Mail.Header

/-!
# Messages

A message with a sender, a recipient, a subject and a body in HTML, as the lines in which it is
sent: its headers, an empty line, and the encoded body.
-/

namespace Stepwise.Mail

/-- A message whose mailboxes have been read. -/
structure Message where
  sender : Mailbox
  recipient : Mailbox
  subject : String
  html : String

namespace Message

/-- The encoding of the body. -/
def encoding (m : Message) : Encoding := .ofBody m.html.toUTF8.toList

/-- The bytes of the body with uniform ends of lines. -/
def body (m : Message) : List UInt8 :=
  (String.ofList (withWireBreaks m.html.toList)).toUTF8.toList

/-- The headers, one of which may take several lines. -/
def headers (m : Message) : List (List Char) :=
  [mailboxHeader "From" m.sender, mailboxHeader "To" m.recipient,
    textHeader "Subject" m.subject, textHeader "Content-Type" "text/html; charset=utf-8",
    textHeader "Content-Transfer-Encoding" m.encoding.name]

/-- Cut a header into its lines. -/
def headerLines : List Char → List (List Char)
  | [] => [[]]
  | '\r' :: '\n' :: rest => [] :: headerLines rest
  | c :: rest =>
      match headerLines rest with
      | [] => [[c]]
      | line :: lines => (c :: line) :: lines

/-- All lines, without the date. -/
def lines (m : Message) : List (List Char) :=
  m.headers.flatMap headerLines ++ [[]] ++ encodedLines m.encoding m.body

/-- A line as it is sent: a point alone would end the message, so a point in front is doubled. -/
def stuffed (line : List Char) : List Char :=
  if line.head? == some '.' then '.' :: line else line

end Message

end Stepwise.Mail
