import Stepwise.Yaml.Cursor

/-!
# Tags

A tag is written in full between angles, or as a handle and a suffix. Handles stand for the start
of a tag; what they stand for may be declared in front of a document.
-/

namespace Stepwise.Yaml.Tag

/-- A tag as it is written: a handle, which may be empty, and what follows it. -/
structure Written where
  handle : List Char
  suffix : List Char

/-- Characters of a tag; inside angles there are more. -/
def isUriChar (inAngles : Bool) (c : Char) : Bool :=
  isNameChar c || ";/?:@&=+$.%!~*'()".toList.contains c || (inAngles && ",[]".toList.contains c)

def hexValue? (c : Char) : Option Nat :=
  if c.isDigit then some (c.toNat - '0'.toNat)
  else if 'a' ≤ c ∧ c ≤ 'f' then some (c.toNat - 'a'.toNat + 10)
  else if 'A' ≤ c ∧ c ≤ 'F' then some (c.toNat - 'A'.toNat + 10)
  else none

/-- The characters of a tag as bytes, a percent sign and two digits standing for one. -/
def unescape : List Char → Option (List UInt8)
  | [] => some []
  | '%' :: a :: b :: rest => do
      let high ← hexValue? a
      let low ← hexValue? b
      let behind ← unescape rest
      some (UInt8.ofNat (high * 16 + low) :: behind)
  | c :: rest =>
      if c == '%' then none
      else (unescape rest).map fun behind => c.toString.toUTF8.toList ++ behind

/-- The text of a part of a tag. -/
def decode? (cs : List Char) : Option (List Char) := do
  let bytes ← unescape cs
  (String.fromUTF8? ⟨bytes.toArray⟩).map String.toList

/-- Read the characters of a tag. -/
def uri? (inAngles : Bool) (c : Cursor) : Option (List Char × Cursor) :=
  let (taken, next) := c.span (isUriChar inAngles)
  (decode? taken).map fun cs => (cs, next)

/-- Read a handle: an exclamation mark, characters of a name, and another mark if there is one. -/
def handle (c : Cursor) : List Char × Cursor :=
  let (name, next) := (c.skip 1).span isNameChar
  if next.isAt '!' then ('!' :: name ++ ['!'], next.skip 1) else ('!' :: name, next)

/-- Whether what was read as a handle is one for certain. -/
def isFullHandle (h : List Char) : Bool :=
  1 < h.length && h.getLast? == some '!'

/-- The end of a tag: white space, or a comma inside brackets. -/
def ended (inFlow : Bool) (c : Cursor) : Bool :=
  (inFlow && c.isAt ',') || endsWord c.peek?

/-- Read a tag at its first exclamation mark. -/
def written? (c : Cursor) : Option (Written × Cursor) :=
  if c.peekAt? 1 == some '<' then
    match uri? true (c.skip 2) with
    | none => none
    | some (suffix, next) =>
        if suffix.isEmpty || !next.isAt '>' then none else some (⟨[], suffix⟩, next.skip 1)
  else
    let (h, next) := handle c
    match uri? false next with
    | none => none
    | some (suffix, next) =>
        if isFullHandle h then if suffix.isEmpty then none else some (⟨h, suffix⟩, next)
        else
          match h.drop 1 ++ suffix with
          | [] => some (⟨[], ['!']⟩, next)
          | whole => some (⟨['!'], whole⟩, next)

/-- Read a tag and see that it ends. -/
def read (inFlow : Bool) (c : Cursor) : Option (Written × Cursor) :=
  match written? c with
  | none => none
  | some (tag, next) => if ended inFlow next then some (tag, next) else none

/-- What handles stand for when nothing is declared. -/
def usualHandles : List (List Char × List Char) :=
  [(['!'], ['!']), (['!', '!'], "tag:yaml.org,2002:".toList)]

/-- The tag that is meant, given what handles stand for. -/
def Written.resolve? (tag : Written) (handles : List (List Char × List Char)) : Option String :=
  if tag.handle.isEmpty then some (String.ofList tag.suffix)
  else (handles.lookup tag.handle).map fun start => String.ofList (start ++ tag.suffix)

end Stepwise.Yaml.Tag
