import Stepwise.Pdf.Object

/-!
# PDF documents

A document is a table of numbered objects and a trailer. An object may be a reference to another
one; such references are followed, up to a limit.
-/

namespace Stepwise.Pdf

/-- Why a document does not answer. -/
inductive Fault where
  | missingHeader
  | missingTable
  | missingKey
  | missingObject
  | wrongType
  | referenceLimit
  deriving DecidableEq, Repr

/-- The fault in words. -/
def Fault.message : Fault → String
  | missingHeader => "Invalid file header"
  | missingTable => "Invalid cross-reference table (invalid start value)"
  | missingKey => "A required dictionary key was not found"
  | missingObject => "A required object was not found"
  | wrongType => "An object does not have the expected type"
  | referenceLimit => "Could not dereference an object; possibly a reference cycle"

/-- Numbered objects, in the order of their numbers, and the trailer. -/
structure Document where
  objects : List (Nat × Object)
  trailer : Dictionary

namespace Document

/-- The object with a number. -/
def entry? (document : Document) (number : Nat) : Option Object :=
  document.objects.lookup number

/-- Put another object in the place of one that is there. -/
def replace (document : Document) (number : Nat) (object : Object) : Document :=
  { document with objects := document.objects.map fun slot =>
      if slot.1 = number then (number, object) else slot }

/-- The place and the object at the end of a chain of references, when so many may be followed. -/
def chase (document : Document) : Nat → Nat → Object → Except Fault (Nat × Object)
  | steps, place, object =>
      match object.asReference? with
      | none => .ok (place, object)
      | some next =>
          match document.entry? next, steps with
          | none, _ => .error .missingObject
          | some _, 0 => .error .referenceLimit
          | some found, steps + 1 => document.chase steps next found

/-- How many references in a row are followed. -/
def referenceLimit : Nat := 128

/-- The place of an object and the object itself, behind any references. -/
def follow (document : Document) (number : Nat) : Except Fault (Nat × Object) :=
  match document.entry? number with
  | none => .error .missingObject
  | some object => document.chase referenceLimit number object

/-- The place of a dictionary and the dictionary itself. -/
def dictionaryAt (document : Document) (number : Nat) : Except Fault (Nat × Dictionary) :=
  match document.follow number with
  | .error e => .error e
  | .ok (place, object) =>
      match object.asDictionary? with
      | none => .error .wrongType
      | some entries => .ok (place, entries)

/-- The dictionary behind a number, if there is one. -/
def dictionary? (document : Document) (number : Nat) : Option Dictionary :=
  match document.dictionaryAt number with
  | .ok found => some found.2
  | .error _ => none

/-- Change the dictionary behind a number. -/
def changeDictionary (document : Document) (number : Nat) (change : Dictionary → Dictionary) :
    Except Fault Document :=
  match document.dictionaryAt number with
  | .error e => .error e
  | .ok (place, entries) => .ok (document.replace place (.dict (change entries)))

end Document

/-- Whether a list has another one as its start. -/
def startsWith (start bytes : List UInt8) : Bool :=
  start.isPrefixOf bytes

/-- The mark at the start of a PDF file. -/
def headerMark : List UInt8 := "%PDF-".toUTF8.toList

/-- Whether the bytes have a header: the mark and a version on one line. -/
def hasHeader : List UInt8 → Bool
  | [] => false
  | b :: rest =>
      if startsWith headerMark (b :: rest) then (b :: rest).any fun b => b == 10 || b == 13
      else hasHeader rest

/-- What is wrong with bytes that hold no table of objects. -/
def faultOfBytes (bytes : List UInt8) : Fault :=
  if hasHeader bytes then .missingTable else .missingHeader

end Stepwise.Pdf
