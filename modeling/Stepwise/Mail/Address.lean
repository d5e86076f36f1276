import Stepwise.Text.Blank
import Stepwise.Text.Pieces
import Stepwise.Text.Word

/-!
# Mail addresses

A mailbox is an address, or a name followed by an address in angle brackets. Reading has two
steps: the text is cut into its parts by the shape of its tokens, and the parts are then checked.
A run of blanks before a token counts as its first blank; blanks after a token are not part of it.
-/

namespace Stepwise.Mail

/-- An address: the user in front of the sign, and the domain behind it. -/
structure Address where
  user : String
  domain : String
  deriving BEq

def Address.text (a : Address) : String := a.user ++ "@" ++ a.domain

/-- An address, with the name of who owns it if that is given. -/
structure Mailbox where
  name : Option String
  address : Address

/-- Why a text is not a mailbox. -/
inductive AddressError where
  | malformed
  | user
  | domain
  deriving DecidableEq

/-- The error in words. -/
def AddressError.message : AddressError → String
  | malformed => "Invalid input"
  | user => "Invalid email user"
  | domain => "Invalid email domain"

/-! ## Tokens -/

/-- The blanks that can stand before a token. -/
def isFoldBlank (c : Char) : Bool := c == ' ' || c == '\t'

/-- The ASCII characters of an atom that are neither letters nor digits. -/
def isAtomSign (c : Char) : Bool := "!#$%&'*+-/=?^_\x60\x7b|\x7d~".toList.contains c

def isAscii (c : Char) : Bool := c.toNat < 0x80

/-- A character of an atom; beyond ASCII every character is one. -/
def isAtomChar (c : Char) : Bool := c.isAlphanum || isAtomSign c || !isAscii c

/-- A control character that is no white space. -/
def isPlainControl (c : Char) : Bool :=
  let n := c.toNat
  (1 ≤ n && n ≤ 8) || n == 11 || n == 12 || (14 ≤ n && n ≤ 31) || n == 127

/-- A character that stands for itself between quotes. -/
def isQuotable (c : Char) : Bool :=
  !isAscii c || isPlainControl c || ('!' ≤ c && c ≤ '~' && c != '"' && c != '\\')

/-- A character that can stand behind a backslash between quotes. -/
def isEscapable (c : Char) : Bool :=
  isAscii c && c != '\x00' && c != '\n' && c != '\r'

/-- Whether the blank in front of a token counts: the first of the run. -/
def firstBlank (cs : List Char) : List Char := (cs.takeWhile isFoldBlank).take 1

/-- An atom with its blank, and the rest. -/
def atom? (cs : List Char) : Option (List Char × List Char) :=
  let rest := cs.dropWhile isFoldBlank
  match rest.takeWhile isAtomChar with
  | [] => none
  | taken => some (firstBlank cs ++ taken, rest.drop taken.length)

/-- Atoms joined by points, and the rest; a point counts only with an atom behind it. -/
def pointedRest : List Char → List Char × List Char
  | [] => ([], [])
  | c :: rest =>
      if isAtomChar c then let (taken, behind) := pointedRest rest; (c :: taken, behind)
      else if c == '.' && (rest.head?.any isAtomChar) then
        let (taken, behind) := pointedRest rest
        (c :: taken, behind)
      else ([], c :: rest)

/-- Atoms joined by points with the blank before them, and the rest. -/
def pointed? (cs : List Char) : Option (List Char × List Char) :=
  let rest := cs.dropWhile isFoldBlank
  if rest.head?.any isAtomChar then
    let (taken, behind) := pointedRest rest
    some (firstBlank cs ++ taken, behind)
  else none

/-- The end of a quoted text: blanks, which do not count, and the quote. -/
def closing? (cs : List Char) : Option (List Char × List Char) :=
  match cs.dropWhile Char.isWhitespace with
  | '"' :: behind => some ([], behind)
  | _ => none

/-- What stands behind an opening quote up to the closing one, and the rest. `blank` is the first
of the blanks that were just passed. -/
def quotedRest (blank : List Char) : List Char → Option (List Char × List Char)
  | [] => none
  | '"' :: rest => some ([], rest)
  | '\\' :: c :: rest =>
      if isEscapable c then
        (quotedRest [] rest).map fun (taken, behind) => (blank ++ c :: taken, behind)
      else none
  | c :: rest =>
      if isFoldBlank c then quotedRest (if blank.isEmpty then [c] else blank) rest
      else if isQuotable c then
        (quotedRest [] rest).map fun (taken, behind) => (blank ++ c :: taken, behind)
      else closing? (c :: rest)

/-- A quoted text without its quotes, and the rest. -/
def quoted? : List Char → Option (List Char × List Char)
  | '"' :: rest => quotedRest [] rest
  | _ => none

/-- A word of a name. -/
def word? (cs : List Char) : Option (List Char × List Char) :=
  (quoted? cs).or (atom? cs)

/-- Words and points up to anything else, given a bound on their number. -/
def phraseRest : Nat → List Char → List Char × List Char
  | 0, cs => ([], cs)
  | count + 1, '.' :: rest =>
      let (taken, behind) := phraseRest count rest
      ('.' :: taken, behind)
  | count + 1, cs =>
      match word? cs with
      | none => ([], cs)
      | some (found, rest) =>
          let (taken, behind) := phraseRest count rest
          (found ++ taken, behind)

/-- A name: a word, then words and points. -/
def phrase? (cs : List Char) : Option (List Char × List Char) :=
  (word? cs).map fun (found, rest) =>
    let (taken, behind) := phraseRest rest.length rest
    (found ++ taken, behind)

/-- A user, a sign and a domain, and the rest. -/
def addressParts? (cs : List Char) : Option (Address × List Char) :=
  match (pointed? cs).or (quoted? cs) with
  | some (user, '@' :: rest) =>
      (pointed? rest).map fun (domain, behind) =>
        (⟨String.ofList user, String.ofList domain⟩, behind)
  | _ => none

/-- An address in angle brackets, and the rest behind the blanks that follow. -/
def bracketed? (cs : List Char) : Option (Address × List Char) :=
  match cs.dropWhile Text.isBlank with
  | '<' :: rest =>
      match addressParts? rest with
      | some (address, '>' :: behind) => some (address, behind.dropWhile Text.isBlank)
      | _ => none
  | _ => none

/-- A name, or none, and an address in angle brackets. -/
def named? (cs : List Char) : Option (Mailbox × List Char) :=
  let (name, rest) : Option String × List Char := match phrase? cs with
    | some (name, rest) => (some (String.ofList name), rest)
    | none => (none, cs)
  (bracketed? rest).map fun (address, behind) => (⟨name, address⟩, behind)

/-- The parts of a whole text. -/
def mailboxParts? (cs : List Char) : Option Mailbox :=
  match (named? cs).or ((addressParts? cs).map fun (a, rest) => (⟨none, a⟩, rest)) with
  | some (mailbox, []) => some mailbox
  | _ => none

/-! ## Checks -/

/-- A character of a user: one of an atom; beyond ASCII it has to belong to a word. -/
def isUserChar (c : Char) : Bool :=
  if isAscii c then isAtomChar c else Text.isWord c

/-- The greatest size of a user in bytes. -/
def maxUserSize : Nat := 64

/-- Atoms joined by points, of a bounded size. -/
def isUser (user : String) : Bool :=
  user.utf8ByteSize ≤ maxUserSize &&
    (Text.pieces '.' user.toList).all fun part => !part.isEmpty && part.all isUserChar

/-- The greatest size of a part of a domain in bytes. -/
def maxLabelSize : Nat := 63

/-- The greatest size of a domain in bytes. -/
def maxDomainSize : Nat := 254

/-- A character that can stand at the ends of a part of a domain. -/
def isLabelEdge (c : Char) : Bool := c.isAlphanum || !isAscii c

/-- A part of a domain: an atom of a bounded size with letters or digits at its ends. -/
def isLabel (part : List Char) : Bool :=
  (String.ofList part).utf8ByteSize ≤ maxLabelSize && part.all isAtomChar &&
    part.head?.any isLabelEdge && part.getLast?.any isLabelEdge

def isDomain (domain : String) : Bool :=
  domain.utf8ByteSize ≤ maxDomainSize && (Text.pieces '.' domain.toList).all isLabel

/-- Check the parts of an address, the user first. -/
def Address.check (a : Address) : Except AddressError Unit :=
  if !isUser a.user then .error .user
  else if !isDomain a.domain then .error .domain
  else .ok ()

/-- The mailbox of a text; blanks around it do not count. -/
def Mailbox.ofText (text : String) : Except AddressError Mailbox :=
  match mailboxParts? (Text.trimChars text.toList) with
  | none => .error .malformed
  | some mailbox => mailbox.address.check.map fun _ => mailbox

end Stepwise.Mail
