import Stepwise.Mail.Address
import Stepwise.Text.Base64

/-!
# Headers of messages

A header is written word by word. Spaces wait until the next word is written: when the word would
make the line too long, the line ends in front of the spaces. Words that are not ASCII are written
in encoded form, cut so that each part fits on its line.
-/

namespace Stepwise.Mail

/-- The greatest length of a line of a header. -/
def maxHeaderLine : Nat := 76

/-- A header in work. -/
structure HeaderDraft where
  /-- What is written, the last character first. -/
  written : List Char
  /-- The length of the current line. -/
  length : Nat
  /-- The spaces that wait. -/
  spaces : Nat
  /-- Whether the line has a word, so that it may end. -/
  hasWord : Bool

namespace HeaderDraft

/-- A header of which only the name is written. -/
def start (name : String) : HeaderDraft :=
  ⟨(name ++ ": ").toList.reverse, name.length + 2, 0, false⟩

def addSpace (d : HeaderDraft) : HeaderDraft := { d with spaces := d.spaces + 1 }

def endLine (d : HeaderDraft) : HeaderDraft :=
  { d with written := '\n' :: '\r' :: d.written, length := 0, hasWord := false }

/-- Write a word behind the spaces that wait. -/
def add (d : HeaderDraft) (word : List Char) : HeaderDraft where
  written := word.reverse ++ List.replicate d.spaces ' ' ++ d.written
  length := d.length + d.spaces + (String.ofList word).utf8ByteSize
  spaces := 0
  hasWord := true

/-- Write a word, on a new line when it does not fit on this one. -/
def addFolding (d : HeaderDraft) (word : List Char) : HeaderDraft :=
  if word.isEmpty then d
  else if d.hasWord && d.spaces ≥ 1 &&
      d.length + d.spaces + (String.ofList word).utf8ByteSize > maxHeaderLine then
    d.endLine.add word
  else d.add word

/-- Write a text whose spaces are places to end a line. -/
def addText (d : HeaderDraft) (text : List Char) : HeaderDraft :=
  match Text.pieces ' ' text with
  | [] => d
  | first :: rest => rest.foldl (fun d word => d.addSpace.addFolding word) (d.addFolding first)

/-! ## Encoded words -/

def encodedStart : List Char := "=?utf-8?b?".toList

def encodedEnd : List Char := "?=".toList

/-- The longest beginning of a text with at most so many bytes, and the rest. -/
def takeBytes (room : Nat) : List Char → List Char × List Char
  | [] => ([], [])
  | c :: rest =>
      if c.utf8Size ≤ room then
        let (taken, behind) := takeBytes (room - c.utf8Size) rest
        (c :: taken, behind)
      else ([], c :: rest)

/-- The bytes for which the line has room in encoded form. -/
def encodedRoom (d : HeaderDraft) : Nat :=
  (maxHeaderLine - (d.length + d.spaces + encodedStart.length + encodedEnd.length + 2)) / 4 * 3

/-- Write a part of a text in encoded form. -/
def addEncodedWord (d : HeaderDraft) (part : List Char) : HeaderDraft :=
  d.add (encodedStart ++ Text.base64 (String.ofList part).toUTF8.toList ++ encodedEnd)

/-- A new line, on which at least one space waits. -/
def continueLine (d : HeaderDraft) : HeaderDraft :=
  let d := d.endLine
  if d.spaces = 0 then d.addSpace else d

/-- Write a text in encoded form, one part on each line, given a bound on the parts. `inside` says
whether a part of the text is written already. -/
def addEncodedWithin (inside : Bool) : Nat → HeaderDraft → List Char → HeaderDraft
  | 0, d, _ => d
  | _ + 1, d, [] => d
  | bound + 1, d, c :: rest =>
      match takeBytes d.encodedRoom (c :: rest) with
      | ([], _) =>
          if inside || d.spaces ≥ 1 then addEncodedWithin inside bound d.continueLine (c :: rest)
          else addEncodedWithin true bound (d.addEncodedWord [c]) rest
      | (part, behind) => addEncodedWithin true bound (d.addEncodedWord part) behind

/-- Write a text in encoded form. -/
def addEncoded (d : HeaderDraft) (text : List Char) : HeaderDraft :=
  addEncodedWithin false (2 * text.length + 1) d text

/-! ## Values -/

/-- A character that a header can hold as it is. -/
def isHeaderChar (c : Char) : Bool :=
  isAscii c && c != '\x00' && c != '\n' && c != '\r'

/-- Write what waits for its encoded form, and the spaces behind it as spaces. -/
def settle (d : HeaderDraft) (waiting : List Char) : HeaderDraft :=
  if waiting.isEmpty then d
  else
    let spaces := (waiting.reverse.takeWhile (· == ' ')).length
    let d := d.addEncoded (waiting.take (waiting.length - spaces))
    { d with spaces := d.spaces + spaces }

/-- Write words with a space between each and the next; adjoining words that cannot stand as they
are share an encoded form. -/
def addWords (d : HeaderDraft) (waiting : List Char) : List (List Char) → HeaderDraft
  | [] => d.settle waiting
  | word :: rest =>
      let spaced := if rest.isEmpty then word else word ++ [' ']
      if word.all isHeaderChar then
        let d := (d.settle waiting).addFolding word
        addWords (if rest.isEmpty then d else d.addSpace) [] rest
      else addWords d (waiting ++ spaced) rest

/-- Write a name: an atom as it is, other ASCII text in quotes, and anything else encoded. -/
def addName (d : HeaderDraft) (name : List Char) : HeaderDraft :=
  if name.all fun c => isAscii c && isAtomChar c then d.addText name
  else if name.all fun c => ' ' ≤ c && c ≤ '~' then
    let escaped := name.flatMap fun c => if c == '"' || c == '\\' then ['\\', c] else [c]
    d.addText ('"' :: escaped ++ ['"'])
  else d.addEncoded name

/-- Write a mailbox. -/
def addMailbox (d : HeaderDraft) (mailbox : Mailbox) : HeaderDraft :=
  match mailbox.name with
  | none => d.add mailbox.address.text.toList
  | some name =>
      (d.addName name.toList).addSpace.add ('<' :: mailbox.address.text.toList ++ ['>'])

/-- The header as it is written; spaces at its end count. -/
def finish (d : HeaderDraft) : List Char :=
  d.written.reverse ++ List.replicate d.spaces ' '

end HeaderDraft

/-- A header with a text. -/
def textHeader (name value : String) : List Char :=
  ((HeaderDraft.start name).addWords [] (Text.pieces ' ' value.toList)).finish

/-- A header with a mailbox. -/
def mailboxHeader (name : String) (mailbox : Mailbox) : List Char :=
  ((HeaderDraft.start name).addMailbox mailbox).finish

end Stepwise.Mail
