import Stepwise.Decode.Error

/-!
# Reading records

A record is written as a map of its fields, or as the list of their values in the order of
declaration. Fields are read in the order in which they stand, and the first one that does not
decode gives the error. Only after that are absent fields looked at, in the order of declaration;
one that has a default takes it. Unknown fields are passed over, and a known field that occurs
twice is an error where it occurs again.

`Form` combines the readings of the fields and keeps the earliest fault, so a record's decoder
names its fields once, in the order of declaration, whatever order the input has.
-/

namespace Stepwise

/-- A fault at a place of the input, or an absent field, which has no place. -/
structure Fault where
  place : Option Nat
  error : DecodeError

/-- The fault that is reported: the earlier place, and an absent field only when nothing else is
wrong. -/
def Fault.earlier (a b : Fault) : Fault :=
  match a.place, b.place with
  | some i, some j => if j < i then b else a
  | some _, none => a
  | none, some _ => b
  | none, none => a

/-- The reading of some of the fields of a record. -/
inductive Form (α : Type) where
  | read (value : α)
  | faulty (fault : Fault)

namespace Form

variable {α β : Type}

/-- Combine two readings; of two faults the earlier one is kept. -/
def both (f : Form (α → β)) (x : Form α) : Form β :=
  match f, x with
  | read g, read v => read (g v)
  | read _, faulty b => faulty b
  | faulty a, read _ => faulty a
  | faulty a, faulty b => faulty (a.earlier b)

/-- A reading that a further fault may spoil. -/
def noting (form : Form α) : Option Fault → Form α
  | none => form
  | some fault =>
      match form with
      | read _ => faulty fault
      | faulty known => faulty (fault.earlier known)

instance : Applicative Form where
  pure := read
  seq f x := both f (x ())

end Form

/-- The fields of a record as they stand in the input, and the error for an absent one. -/
structure Fields (β : Type) where
  entries : List (String × β)
  absent : String → DecodeError

namespace Fields

variable {α β : Type}

/-- The first entry of a name with its place, counting from a place. -/
def locate (key : String) : Nat → List (String × β) → Option (Nat × β)
  | _, [] => none
  | i, (name, value) :: rest =>
      if name = key then some (i, value) else locate key (i + 1) rest

/-- Read a field; a default stands in for an absent one. -/
def field (fields : Fields β) (key : String) (read : β → Except DecodeError α)
    (default : Option α) : Form α :=
  match locate key 0 fields.entries with
  | some (i, value) =>
      match read value with
      | .ok v => .read v
      | .error e => .faulty ⟨some i, e⟩
  | none =>
      match default with
      | some v => .read v
      | none => .faulty ⟨none, fields.absent key⟩

/-- Read a field that must be there. -/
def required (fields : Fields β) (key : String) (read : β → Except DecodeError α) : Form α :=
  fields.field key read none

/-- Read a field that has a default. -/
def withDefault (fields : Fields β) (key : String) (read : β → Except DecodeError α)
    (default : α) : Form α :=
  fields.field key read (some default)

/-- The first known name that occurs a second time, with its place. -/
def repeated? (known : List String) :
    Nat → List String → List (String × β) → Option (Nat × String)
  | _, _, [] => none
  | i, seen, (name, _) :: rest =>
      if name ∈ known then
        if name ∈ seen then some (i, name) else repeated? known (i + 1) (name :: seen) rest
      else repeated? known (i + 1) seen rest

/-- The fault of a known name that occurs twice. -/
def repetition? (fields : Fields β) (known : List String) : Option Fault :=
  (repeated? known 0 [] fields.entries).map fun (i, name) => ⟨some i, .duplicate name⟩

/-- The outcome of reading the known fields. -/
def finish (fields : Fields β) (known : List String) (form : Form α) : Except DecodeError α :=
  match (form.noting (fields.repetition? known)) with
  | .read v => .ok v
  | .faulty fault => .error fault.error

end Fields

namespace Json

variable {α : Type}

/-- Decode the members of a map as the fields of a record. -/
def decodeMembers (known : List String) (build : Fields Json → Form α)
    (members : List (String × Json)) : Except DecodeError α :=
  let fields : Fields Json := ⟨members, .missing⟩
  fields.finish known (build fields)

/-- Decode the items of a list as the fields of a record, in the order of declaration. -/
def decodeItems (record : String) (known : List String) (build : Fields Json → Form α)
    (items : List Json) : Except DecodeError α :=
  let fields : Fields Json :=
    ⟨known.zip items, fun key => .tooFew (known.idxOf key) record known.length⟩
  match fields.finish known (build fields) with
  | .error e => .error e
  | .ok v => if known.length < items.length then .error (.tooMany items.length) else .ok v

/-- Decode a record with the given fields. -/
def decodeRecord (record : String) (known : List String) (build : Fields Json → Form α) :
    Json → Except DecodeError α
  | obj members => decodeMembers known build members
  | arr items => decodeItems record known build items
  | v => .error (.unexpected v.found (.record record))

/-! ## Plain values -/

def decodeText : Json → Except DecodeError String
  | str s => .ok s
  | v => .error (.unexpected v.found .text)

def decodeTruth : Json → Except DecodeError Bool
  | bool b => .ok b
  | v => .error (.unexpected v.found .truth)

/-- Any value, its objects with distinct names. -/
def decodeAny (v : Json) : Except DecodeError Json :=
  .ok v.normal

/-- `null` stands for nothing. -/
def decodeOptional (read : Json → Except DecodeError α) : Json → Except DecodeError (Option α)
  | null => .ok none
  | v => (read v).map some

/-- Decode the items of a list in order. -/
def decodeEach {β : Type} (read : β → Except DecodeError α) : List β → Except DecodeError (List α)
  | [] => .ok []
  | v :: rest =>
      match read v with
      | .error e => .error e
      | .ok a => (decodeEach read rest).map (a :: ·)

def decodeList (read : Json → Except DecodeError α) : Json → Except DecodeError (List α)
  | arr items => decodeEach read items
  | v => .error (.unexpected v.found .sequence)

/-- Decode the members of a map in order, a repeated name keeping its place and its last value. -/
def decodeEachMember (read : Json → Except DecodeError α) (done : Ordered α) :
    List (String × Json) → Except DecodeError (Ordered α)
  | [] => .ok done
  | (k, v) :: rest =>
      match read v with
      | .error e => .error e
      | .ok a => decodeEachMember read (done.set k a) rest

def decodeMap (read : Json → Except DecodeError α) : Json → Except DecodeError (Ordered α)
  | obj members => decodeEachMember read [] members
  | v => .error (.unexpected v.found .map)

/-- A choice between names is written as the name, or as a map with the name as its only key and
`null` beside it. -/
def decodeChoice (choose : String → Except DecodeError α) : Json → Except DecodeError α
  | str s => choose s
  | obj [(k, v)] =>
      match choose k with
      | .error e => .error e
      | .ok a =>
          match v with
          | null => .ok a
          | other => .error (.unexpected other.found .unit)
  | obj _ => .error .notSingle
  | v => .error (.notChoice v.found)

end Json

end Stepwise
