import Stepwise.Text.Pieces
import Stepwise.Web.Percent
import Stepwise.Web.Punycode

/-!
# Addresses on the web

An address has a scheme, perhaps a host with a port and the credentials of a user, a path, a query
and a fragment. Addresses are normal: names are in lower case, the usual port of a scheme is left
out, the path has no dot segments, and what cannot stand in a part is percent encoded. Schemes of
the web always have a host, and take a backslash for a slash.
-/

namespace Stepwise.Web

/-- A normal address. -/
structure Url where
  scheme : String
  user : String
  password : Option String
  host : Option String
  port : Option Nat
  path : String
  query : Option String
  fragment : Option String

/-- The schemes that always have a host, and their usual ports. -/
def specialSchemes : List (String × Nat) :=
  [("http", 80), ("https", 443), ("ws", 80), ("wss", 443), ("ftp", 21)]

def isSpecial (scheme : String) : Bool :=
  (specialSchemes.lookup scheme).isSome

/-- Cut a text in front of the first character of a class. -/
def cutBefore (inClass : Char → Bool) (cs : List Char) : List Char × List Char :=
  (cs.takeWhile fun c => !inClass c, cs.dropWhile fun c => !inClass c)

/-- Cut a text at the first occurrence of a character; the character is in neither part. -/
def cutAt? (separator : Char) (cs : List Char) : Option (List Char × List Char) :=
  match cutBefore (· == separator) cs with
  | (_, []) => none
  | (before, _ :: behind) => some (before, behind)

/-- Cut a text at the last occurrence of a character. -/
def cutAtLast? (separator : Char) (cs : List Char) : Option (List Char × List Char) :=
  (cutAt? separator cs.reverse).map fun (behind, before) => (before.reverse, behind.reverse)

/-! ## Hosts -/

/-- The number that digits spell in a base. -/
def digitsValue? (base : UInt8) (cs : List Char) : Option Nat :=
  cs.foldl (fun n c => n.bind fun n => (hexValue? c.toUInt8).bind fun d =>
    if c.toNat < 0x80 && d < base then some (n * base.toNat + d.toNat) else none) (some 0)

/-- The number that a part of a host spells: in base 16 behind `0x`, in base 8 behind a zero. -/
def hostNumber? : List Char → Option Nat
  | [] => none
  | '0' :: 'x' :: rest => digitsValue? 16 rest
  | '0' :: c :: rest => digitsValue? 8 (c :: rest)
  | cs => digitsValue? 10 cs

/-- The number of an address in four or fewer parts; the last part fills what the others leave. -/
def joinParts? (whole : Nat) : List Nat → Option Nat
  | [] => none
  | [last] => if last < Nat.pow 256 whole then some last else none
  | part :: rest =>
      if part < 256 then
        (joinParts? (whole - 1) rest).map fun n => part * Nat.pow 256 (whole - 1) + n
      else none

/-- The four parts of an address. -/
def dottedText (n : Nat) : String :=
  String.intercalate "." ([24, 16, 8, 0].map fun shift => toString (n / Nat.pow 2 shift % 256))

/-- The parts of a host without an empty last one. -/
def hostParts (host : List Char) : List (List Char) :=
  let parts := Text.pieces '.' host
  if parts.length > 1 && parts.getLast? == some [] then parts.dropLast else parts

/-- Whether a host is meant as a number. -/
def isNumericHost (host : List Char) : Bool :=
  match (hostParts host).getLast? with
  | none => false
  | some last => (!last.isEmpty && last.all Char.isDigit) ||
      (last.take 2 == ['0', 'x'] && (digitsValue? 16 (last.drop 2)).isSome)

/-- The normal form of a numeric host. -/
def numericHost? (host : List Char) : Option String :=
  let parts := hostParts host
  if parts.length > 4 then none
  else ((parts.mapM hostNumber?).bind (joinParts? 4)).map dottedText

/-- A character that cannot stand in a name of a host. -/
def isForbiddenInDomain (c : Char) : Bool :=
  c ≤ ' ' || c == '\x7f' || "#/:<>?@[\\]^|%".toList.contains c

/-- A character that cannot stand in a host of any scheme. -/
def isForbiddenInHost (c : Char) : Bool :=
  c == '\x00' || "\t\n\r #/:<>?@[\\]^|".toList.contains c

/-- A host of a scheme of the web: a name, or a numeric address. -/
def domain? (cs : List Char) : Option String :=
  match String.fromUTF8? ⟨(percentDecode (String.ofList cs).toUTF8.toList).toArray⟩ with
  | none => none
  | some decoded =>
      let labels := Text.pieces '.' (decoded.toList.map Char.toLower)
      let host := ['.'].intercalate (labels.map Punycode.encode)
      if host.isEmpty || host.any isForbiddenInDomain then none
      else if isNumericHost host then numericHost? host
      else some (String.ofList host)

/-- A host in brackets, as it is written. -/
def bracketed? (cs : List Char) : Option String :=
  let inner := (cs.drop 1).dropLast.map Char.toLower
  if cs.getLast? == some ']' && inner.length ≥ 2 &&
      inner.all fun c => (hexValue? c.toUInt8).isSome || c == ':' || c == '.' then
    some (String.ofList ('[' :: inner ++ [']']))
  else none

/-- The host of an address. -/
def host? (scheme : String) (cs : List Char) : Option String :=
  if cs.head? == some '[' then bracketed? cs
  else if isSpecial scheme then domain? cs
  else if cs.any isForbiddenInHost then none
  else some (String.ofList (percentEncode inControlSet cs))

/-- The greatest port. -/
def maxPort : Nat := 65535

/-- The port behind a host; the usual one of the scheme is left out. -/
def port? (scheme : String) (cs : List Char) : Option (Option Nat) :=
  if cs.isEmpty then some none
  else if !cs.all Char.isDigit then none
  else
    match digitsValue? 10 cs with
    | none => none
    | some n =>
        if n > maxPort then none
        else some (if specialSchemes.lookup scheme == some n then none else some n)

/-! ## Paths -/

/-- What a segment of a path does: stay, go up, or go down. -/
inductive SegmentKind where
  | here
  | up
  | name
  deriving DecidableEq

/-- A point may be percent encoded in a segment of points. -/
def segmentKind (segment : List Char) : SegmentKind :=
  let text := String.ofList (segment.map Char.toLower)
  if text == "." || text == "%2e" then .here
  else if ["..", ".%2e", "%2e.", "%2e%2e"].contains text then .up
  else .name

/-- The segments of a path without dot segments; one at the end leaves an empty segment. -/
def walkSegments (walked : List (List Char)) : List (List Char) → List (List Char)
  | [] => walked
  | segment :: rest =>
      let ended := if rest.isEmpty then [[]] else []
      match segmentKind segment with
      | .here => walkSegments (walked ++ ended) rest
      | .up => walkSegments (walked.dropLast ++ ended) rest
      | .name => walkSegments (walked ++ [percentEncode inPathSet segment]) rest

/-- The normal form of a path that begins with a slash. -/
def normalPath (cs : List Char) : String :=
  String.join ((walkSegments [] (Text.pieces '/' (cs.drop 1))).map fun segment =>
    "/" ++ String.ofList segment)

/-! ## Reading -/

/-- The scheme in front of the first colon, and the rest. -/
def scheme? (cs : List Char) : Option (String × List Char) :=
  match cutAt? ':' cs with
  | some (first :: more, rest) =>
      if first.isAlpha && more.all fun c => c.isAlphanum || "+-.".toList.contains c then
        some (String.ofList ((first :: more).map Char.toLower), rest)
      else none
  | _ => none

/-- The text without the blanks and control characters around it, and without tabs and ends of
lines inside. -/
def cleaned (cs : List Char) : List Char :=
  let ends := fun c : Char => c ≤ ' '
  (((cs.dropWhile ends).reverse.dropWhile ends).reverse).filter fun c =>
    c != '\t' && c != '\n' && c != '\r'

/-- An address without its fragment and query, and these two as far as they are there. -/
def cutTail (special : Bool) (cs : List Char) : List Char × Option String × Option String :=
  let (cs, fragment) := match cutAt? '#' cs with
    | some (before, behind) => (before, some (String.ofList (percentEncode inFragmentSet behind)))
    | none => (cs, none)
  match cutAt? '?' cs with
  | some (before, behind) =>
      let set := if special then inSpecialQuerySet else inQuerySet
      (before, some (String.ofList (percentEncode set behind)), fragment)
  | none => (cs, none, fragment)

/-- The user and the password in front of a host. -/
def credentials (cs : List Char) : String × Option String :=
  let encode := fun part => String.ofList (percentEncode inUserSet part)
  match cutAt? ':' cs with
  | some (user, password) =>
      (encode user, if password.isEmpty then none else some (encode password))
  | none => (encode cs, none)

/-- The host and the port of an address. A colon inside brackets separates nothing. -/
def cutPort (cs : List Char) : List Char × List Char :=
  match cutAtLast? ':' cs with
  | some (host, port) => if port.contains ']' then (cs, []) else (host, port)
  | none => (cs, [])

/-- What stands between the slashes and the path. -/
def authority? (url : Url) (cs : List Char) : Option Url :=
  let ((user, password), rest) := match cutAtLast? '@' cs with
    | some (owner, rest) => (credentials owner, rest)
    | none => (("", none), cs)
  let (host, port) := cutPort rest
  match host? url.scheme host, port? url.scheme port with
  | some host, some port => some { url with user, password, host := some host, port }
  | _, _ => none

namespace Url

/-- An address of a scheme of the web. -/
def ofSpecial? (url : Url) (cs : List Char) : Option Url :=
  let cs := cs.map fun c => if c == '\\' then '/' else c
  let (authority, path) := cutBefore (· == '/') (cs.dropWhile (· == '/'))
  authority? { url with path := if path.isEmpty then "/" else normalPath path } authority

/-- An address of another scheme. -/
def ofOther? (url : Url) : List Char → Option Url
  | '/' :: '/' :: rest =>
      let (authority, path) := cutBefore (· == '/') rest
      let url := { url with path := if path.isEmpty then "" else normalPath path }
      if authority.isEmpty then some { url with host := some "" } else authority? url authority
  | '/' :: rest => some { url with path := normalPath ('/' :: rest) }
  | cs => some { url with path := String.ofList (percentEncode inControlSet cs) }

/-- The normal address that a text spells. -/
def ofText? (text : String) : Option Url :=
  match scheme? (cleaned text.toList) with
  | none => none
  | some (scheme, rest) =>
      let (body, query, fragment) := cutTail (isSpecial scheme) rest
      let url : Url := ⟨scheme, "", none, none, none, "", query, fragment⟩
      if isSpecial scheme then url.ofSpecial? body else url.ofOther? body

/-- A part with a sign in front, if it is there. -/
def marked (sign : String) : Option String → String
  | none => ""
  | some text => sign ++ text

/-- The credentials as they stand in front of a host. -/
def owner (url : Url) : String :=
  if url.user == "" && url.password.isNone then ""
  else url.user ++ marked ":" url.password ++ "@"

/-- The host, with all that stands around it. -/
def authority (url : Url) : String :=
  match url.host with
  | none => ""
  | some host => "//" ++ url.owner ++ host ++ marked ":" (url.port.map toString)

/-- The path and the query, as they are asked for. -/
def target (url : Url) : String := url.path ++ marked "?" url.query

/-- The address as a text. -/
def text (url : Url) : String :=
  url.scheme ++ ":" ++ url.authority ++ url.target ++ marked "#" url.fragment

/-- The address without the credentials in it. -/
def anonymous (url : Url) : Url := { url with user := "", password := none }

/-- Whether the address names a host. -/
def hasHost (url : Url) : Bool := url.host.any (· != "")

/-- Whether requests can be made to the address. -/
def isWeb (url : Url) : Bool := url.scheme == "http" || url.scheme == "https"

end Url

end Stepwise.Web
