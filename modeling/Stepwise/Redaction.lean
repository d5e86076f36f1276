import Stepwise.Text.Blank
import Stepwise.Text.Caseless
import Stepwise.Text.Word

/-!
# Redaction

Texts that go to a log lose what looks like a secret. A rule looks at one place of a text and says
what stands there: a part that is kept, the secret behind it, and a part behind the secret that is
kept as well. A sweep applies one rule from the front to the end, going on behind each secret it
has found. Redacting a text makes one sweep for each rule, in a fixed order, so a later rule sees
what earlier ones have left.
-/

namespace Stepwise.Redaction

open Text

/-- A secret found at a place of a text. -/
structure Found where
  kept : List Char
  secret : List Char
  tail : List Char

namespace Found

def length (f : Found) : Nat :=
  f.kept.length + f.secret.length + f.tail.length

end Found

/-- What a rule finds at a place, given the character in front of it. -/
abbrev Rule := Option Char → List Char → Option Found

/-- What is written in place of a secret. -/
def mark : List Char := "[REDACTED]".toList

/-- Apply a rule at every place; the first so many characters belong to what was found before. -/
def sweepFrom (rule : Rule) : Nat → Option Char → List Char → List Char
  | _, _, [] => []
  | skip + 1, _, c :: rest => sweepFrom rule skip (some c) rest
  | 0, before, c :: rest =>
      match rule before (c :: rest) with
      | none => c :: sweepFrom rule 0 (some c) rest
      | some f => f.kept ++ mark ++ f.tail ++ sweepFrom rule (f.length - 1) (some c) rest

/-- Apply a rule to a whole text. -/
def sweep (rule : Rule) (cs : List Char) : List Char :=
  sweepFrom rule 0 none cs

/-! ## Rules -/

def isSolid (c : Char) : Bool := !isBlank c

/-- The text of a place up to its last character that is not blank. -/
def solidPart (cs : List Char) : List Char :=
  (cs.reverse.dropWhile isBlank).reverse

/-- Everything behind an authorization header, up to the last character that is not blank. -/
def authorization : Rule := fun _ cs => do
  let (name, rest) ← spelled? "authorization:".toList cs
  let (gap, rest) ← run? isBlank rest
  match solidPart rest with
  | [] => none
  | secret => some ⟨name ++ gap, secret, []⟩

/-- Whether a word can start behind a character. -/
def startsWord : Option Char → Bool
  | none => true
  | some c => !isWord c

/-- A token behind the name of a scheme, with the equals signs that fill it up. -/
def credentials (scheme : List Char) (inToken : Char → Bool) : Rule := fun before cs =>
  if startsWord before then do
    let (name, rest) ← spelled? scheme cs
    let (gap, rest) ← run? isBlank rest
    let (token, rest) ← run? inToken rest
    some ⟨name ++ gap, token ++ (run (· == '=') rest).1, []⟩
  else none

def isBearerChar (c : Char) : Bool :=
  isLetterOrDigit c || "-._~+/".toList.contains c

def isBasicChar (c : Char) : Bool :=
  isLetterOrDigit c || c == '+' || c == '/'

def bearer : Rule := credentials "bearer".toList isBearerChar

def basic : Rule := credentials "basic".toList isBasicChar

def isSchemeChar (c : Char) : Bool :=
  isLetterOrDigit c || "+.-".toList.contains c

def isUserChar (c : Char) : Bool :=
  isSolid c && c != '/' && c != '@' && c != ':'

def isPasswordChar (c : Char) : Bool :=
  isSolid c && c != '/' && c != '@'

/-- The user and the password in front of the host of an address. -/
def addressUser : Rule := fun _ cs => do
  let _ ← run? isLetter cs
  let (scheme, rest) := run isSchemeChar cs
  let (slashes, rest) ← spelled? "://".toList rest
  let (user, rest) ← run? isUserChar rest
  let (colon, rest) ← spelled? [':'] rest
  let (password, rest) ← run? isPasswordChar rest
  let (sign, _) ← spelled? ['@'] rest
  some ⟨scheme ++ slashes, user ++ colon ++ password, sign⟩

def isNameChar (c : Char) : Bool :=
  isLetterOrDigit c || c == '_'

/-- Whether one of some words stands in a text. -/
def names (words : List String) (cs : List Char) : Bool :=
  words.any fun w => spells w.toList cs

/-- A value assigned to a name that holds a word for secrets. -/
def assignment : Rule := fun _ cs => do
  let (name, rest) ← run? isNameChar cs
  if names ["key", "token", "secret", "password", "passwd"] name then
    let (gap, rest) := run isBlank rest
    let (sign, rest) ← spelled? ['='] rest
    let (space, rest) := run isBlank rest
    let (secret, _) ← run? isSolid rest
    some ⟨name ++ gap ++ sign ++ space, secret, []⟩
  else none

def isKeyChar (c : Char) : Bool :=
  isLetterOrDigit c || c == '_' || c == '.' || c == '-'

/-- A quoted text behind a quoted key that holds a word for secrets. -/
def member : Rule := fun _ cs => do
  let (quote, rest) ← spelled? ['"'] cs
  let (key, rest) ← run? isKeyChar rest
  if names ["key", "token", "secret", "password"] key then
    let (close, rest) ← spelled? ['"'] rest
    let (gap, rest) := run isBlank rest
    let (colon, rest) ← spelled? [':'] rest
    let (space, rest) := run isBlank rest
    let (start, rest) ← spelled? ['"'] rest
    let (secret, rest) ← run? (· != '"') rest
    let (stop, _) ← spelled? ['"'] rest
    some ⟨quote ++ key ++ close ++ gap ++ colon ++ space ++ start, secret, stop⟩
  else none

/-- The address of a database. -/
def databaseAddress : Rule := fun _ cs => do
  let (name, rest) ← spelled? "database_url=".toList cs
  let (secret, _) ← run? isSolid rest
  some ⟨name, secret, []⟩

/-- The rules in the order of their sweeps. -/
def rules : List Rule :=
  [authorization, bearer, basic, addressUser, assignment, member, databaseAddress]

/-! ## Texts and headers -/

/-- The characters of a text without its secrets. -/
def redactChars (cs : List Char) : List Char :=
  rules.foldl (fun cs rule => sweep rule cs) cs

/-- A text without its secrets. -/
def redact (text : String) : String :=
  String.ofList (redactChars text.toList)

/-- Words in the names of headers whose values are secret as a whole. -/
def secretHeaderWords : List String :=
  ["authorization", "cookie", "api-key", "apikey", "token", "secret", "password"]

/-- Whether a word stands in a text. -/
def occurs (word : List Char) : List Char → Bool
  | [] => word.isEmpty
  | c :: rest => word.isPrefixOf (c :: rest) || occurs word rest

/-- Whether the value of a header is secret as a whole; ASCII letters count without case. -/
def isSecretHeader (name : String) : Bool :=
  let lower := name.toList.map Char.toLower
  secretHeaderWords.any fun word => occurs word.toList lower

/-- The value of a header for a log. -/
def redactHeader (name value : String) : String :=
  if isSecretHeader name then String.ofList mark else redact value

end Stepwise.Redaction
