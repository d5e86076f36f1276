import Stepwise.Ordered

/-!
# PDF objects

The objects a form is made of. A dictionary keeps its entries in the order in which they were
added; taking an entry out moves the last entry to its place. A reference stands for the object
with its number and is not followed here.
-/

namespace Stepwise.Pdf

/-- How the bytes of a string are written. -/
inductive StringForm where
  | literal
  | hexadecimal
  deriving DecidableEq, Repr

/-- An object of a document. -/
inductive Object where
  | null
  | bool (value : Bool)
  | int (value : Int)
  | name (text : String)
  | arr (items : List Object)
  | ref (number : Nat)
  | bytes (form : StringForm) (content : List UInt8)
  | dict (entries : List (String × Object))
  deriving Repr, Inhabited

/-- The entries of a dictionary. -/
abbrev Dictionary := Ordered Object

namespace Object

def asReference? : Object → Option Nat
  | ref n => some n
  | _ => none

def asDictionary? : Object → Option Dictionary
  | dict entries => some entries
  | _ => none

def asArray? : Object → Option (List Object)
  | arr items => some items
  | _ => none

def asName? : Object → Option String
  | name text => some text
  | _ => none

def asBytes? : Object → Option (List UInt8)
  | bytes _ content => some content
  | _ => none

def asInt? : Object → Option Int
  | int n => some n
  | _ => none

end Object

namespace Dictionary

/-- The last entry of a list put in front of the others. -/
def lastFirst (entries : Dictionary) : Dictionary :=
  match entries.getLast? with
  | none => []
  | some last => last :: entries.dropLast

/-- Take an entry out; the last entry moves to its place. -/
def remove (entries : Dictionary) (key : String) : Dictionary :=
  match entries with
  | [] => []
  | (name, value) :: rest =>
      if name = key then lastFirst rest else (name, value) :: remove rest key

def bytes? (entries : Dictionary) (key : String) : Option (List UInt8) :=
  (entries.find? key).bind Object.asBytes?

def name? (entries : Dictionary) (key : String) : Option String :=
  (entries.find? key).bind Object.asName?

def int? (entries : Dictionary) (key : String) : Option Int :=
  (entries.find? key).bind Object.asInt?

def array? (entries : Dictionary) (key : String) : Option (List Object) :=
  (entries.find? key).bind Object.asArray?

/-- The numbers of the references in an array; nothing for an entry that is no array. -/
def references (entries : Dictionary) (key : String) : List Nat :=
  ((entries.array? key).getD []).filterMap Object.asReference?

end Dictionary

end Stepwise.Pdf
