import Stepwise.Decode.Form
import Stepwise.Json.Fragment

/-!
# Decoding in the order of the text

A text is decoded in the order in which it stands, so the first fault counts, whether a value has
the wrong shape there or the text stops being JSON. A record is read as in `Decode.Form`; a field
that is not known is passed over, whatever value is spelled there and whether it can be held or not.
-/

namespace Stepwise.Fragment

variable {α : Type}

/-- Whether the text goes on behind a value. -/
def goesOn : Fragment → Bool
  | arr _ closed => closed
  | obj _ closed => closed
  | broken => false
  | _ => true

/-- What was read of a value up to the place from which on it is passed over. -/
def front : Fragment → Fragment
  | passed => broken
  | passedObj members => obj members false
  | v => v

/-- The value without what its containers hold. -/
def shell : Fragment → Option Json
  | null => some .null
  | bool b => some (.bool b)
  | num n => some (.num n)
  | str s => some (.str s)
  | arr _ _ => some (.arr [])
  | obj _ _ => some (.obj [])
  | passedObj _ => some (.obj [])
  | broken | passed => none

/-- Decode a value that is no container. -/
def decodePlain (read : Json → Except DecodeError α) (v : Fragment) : Except DecodeError α :=
  match v.shell with
  | none => .error .brokenText
  | some v => read v

/-- Decode a value of any kind, after it has been read whole. -/
def decodeWhole (read : Json → Except DecodeError α) (v : Fragment) : Except DecodeError α :=
  match v.toJson? with
  | none => .error .brokenText
  | some v => read v

/-- `null` stands for nothing. -/
def decodeOptional (read : Fragment → Except DecodeError α) :
    Fragment → Except DecodeError (Option α)
  | null => .ok none
  | v => (read v).map some

/-- Decode the items of a list in order. -/
def decodeList (read : Fragment → Except DecodeError α) :
    Fragment → Except DecodeError (List α)
  | arr items closed =>
      match Json.decodeEach read items with
      | .error e => .error e
      | .ok found => if closed then .ok found else .error .brokenText
  | v => v.decodePlain fun v => .error (.unexpected v.found .sequence)

/-- Decode a map of values of any kind. -/
def decodeMap (v : Fragment) : Except DecodeError (Ordered Json) :=
  match v.front with
  | obj members closed => (obj members closed).decodeWhole (Json.decodeMap Json.decodeAny)
  | v => v.decodePlain (Json.decodeMap Json.decodeAny)

/-- The first unknown member behind which the text does not go on. -/
def brokenMember? (known : List String) : Nat → List (String × Fragment) → Option Fault
  | _, [] => none
  | i, (name, v) :: rest =>
      if name ∉ known ∧ !v.goesOn then some ⟨some i, .brokenText⟩
      else brokenMember? known (i + 1) rest

/-- The fault of a container that was not closed behind its entries. -/
def openEnd? (length : Nat) (closed : Bool) : Option Fault :=
  if closed then none else some ⟨some length, .brokenText⟩

/-- Decode a record with the given fields. -/
def decodeRecord (record : String) (known : List String) (build : Fields Fragment → Form α)
    (v : Fragment) : Except DecodeError α :=
  match v.front with
  | obj members closed =>
      let fields : Fields Fragment := ⟨members, .missing⟩
      fields.finish known (((build fields).noting (brokenMember? known 0 members)).noting
        (openEnd? members.length closed))
  | arr items closed =>
      let fields : Fields Fragment :=
        ⟨known.zip items, fun key => .tooFew (known.idxOf key) record known.length⟩
      match fields.finish known ((build fields).noting (openEnd? items.length closed)) with
      | .error e => .error e
      | .ok v => if known.length < items.length then .error (.tooMany items.length) else .ok v
  | v => v.decodePlain fun v => .error (.unexpected v.found (.record record))

/-- Decode a choice between names. -/
def decodeChoice (choose : String → Except DecodeError α) (v : Fragment) : Except DecodeError α :=
  match v.front with
  | str s => choose s
  | obj [(k, v)] closed =>
      match choose k with
      | .error e => .error e
      | .ok a =>
          match v with
          | null => if closed then .ok a else .error .brokenText
          | other => other.decodePlain fun v => .error (.unexpected v.found .unit)
  | obj ((k, _) :: _) _ =>
      match choose k with
      | .error e => .error e
      | .ok _ => .error .notSingle
  | obj [] closed => .error (if closed then .notSingle else .brokenText)
  | v => v.decodePlain fun v => .error (.notChoice v.found)

end Stepwise.Fragment

namespace Stepwise.Json

/-- Decode an unsigned number of so many bits. -/
def decodeUnsigned (bits : Nat) : Json → Except DecodeError Nat
  | num (.int n) =>
      if 0 ≤ n ∧ n < (Nat.pow 2 bits : Nat) then .ok n.toNat
      else .error (.outOfRange (.num (.int n)) (.unsigned bits))
  | v => .error (.unexpected v.found (.unsigned bits))

/-- Decode a path. -/
def decodePath : Json → Except DecodeError String
  | str s => .ok s
  | v => .error (.unexpected v.found .path)

end Stepwise.Json
