import Stepwise.Decode.Form

/-!
# YAML values

A value is a scalar, a sequence, a mapping whose keys may be any values, or a value with a tag of
its own. Keys are the `same` when they are equal as values: mappings regardless of order, a number
only to numbers of its kind, and not-a-number to itself.
-/

namespace Stepwise.Yaml

/-- A YAML value. -/
inductive Value where
  | null
  | bool (value : Bool)
  | num (value : Number)
  | str (value : String)
  | seq (items : List Value)
  | map (entries : List (Value × Value))
  | tagged (tag : String) (value : Value)
  deriving Inhabited

namespace Value

/-- Equal numbers as keys: not-a-number counts as one number. -/
def sameNumber : Number → Number → Bool
  | .float a, .float b => a.same b || (a.isNaN && b.isNaN)
  | a, b => a.same b

mutual

/-- Equality of keys. -/
def same : Value → Value → Bool
  | null, null => true
  | bool a, bool b => a == b
  | num a, num b => sameNumber a b
  | str a, str b => a == b
  | seq xs, seq ys => sameItems xs ys
  | map xs, map ys => xs.length == ys.length && sameEntries xs ys
  | tagged s x, tagged t y => s == t && same x y
  | _, _ => false

def sameItems : List Value → List Value → Bool
  | [], [] => true
  | x :: xs, y :: ys => same x y && sameItems xs ys
  | _, _ => false

/-- Every entry of the first list stands in the second. -/
def sameEntries : List (Value × Value) → List (Value × Value) → Bool
  | [], _ => true
  | (k, v) :: rest, ys => holdsEntry k v ys && sameEntries rest ys

def holdsEntry (k v : Value) : List (Value × Value) → Bool
  | [] => false
  | (k', v') :: rest => (same k k' && same v v') || holdsEntry k v rest

end

/-- The value without its tags. -/
def untagged : Value → Value
  | tagged _ v => untagged v
  | v => v

/-- What a value is when something else was expected. -/
def found : Value → Found
  | null => .null
  | bool b => .bool b
  | num n => .num n
  | str s => .str s
  | seq _ => .sequence
  | map _ => .map
  | tagged _ _ => .tagged

/-- A text as a key. -/
def keyText? (v : Value) : Option String :=
  match v.untagged with
  | str s => some s
  | _ => none

/-- The value of a text key in a mapping. -/
def member? (v : Value) (key : String) : Option Value :=
  match v.untagged with
  | map entries => (entries.find? fun e => e.1.same (.str key)).map Prod.snd
  | _ => none

/-! ## JSON -/

/-- A number as JSON has it; infinite numbers have no JSON form. -/
def jsonNumber : Number → Json
  | .int n => .num (.int n)
  | .float d => if d.isFinite then .num (.float d) else .null

mutual

/-- The JSON value of a value. Tags and keys that are no texts have none. -/
def toJson : Value → Except DecodeError Json
  | null => .ok .null
  | bool b => .ok (.bool b)
  | num n => .ok (jsonNumber n)
  | str s => .ok (.str s)
  | seq items => (toItems items).map .arr
  | map entries => (toMembers .keyText [] entries).map .obj
  | tagged _ _ => .error (.unexpected .tagged .anyJson)

def toItems : List Value → Except DecodeError (List Json)
  | [] => .ok []
  | v :: rest =>
      match toJson v with
      | .error e => .error e
      | .ok j => (toItems rest).map (j :: ·)

/-- The members of a mapping behind those gathered so far. What is said to be expected of a key
differs between the first one and the others. -/
def toMembers (expected : Expected) (done : List (String × Json)) :
    List (Value × Value) → Except DecodeError (List (String × Json))
  | [] => .ok done
  | (k, v) :: rest =>
      match k.keyText? with
      | none => .error (.unexpected k.untagged.found expected)
      | some key =>
          match toJson v with
          | .error e => .error e
          | .ok j => toMembers .text (Ordered.set done key j) rest

end

end Value

/-! ## Decoding -/

namespace Value

variable {α : Type}

def decodeText (v : Value) : Except DecodeError String :=
  match v.untagged with
  | str s => .ok s
  | other => .error (.unexpected other.found .text)

/-- `null` stands for nothing. -/
def decodeOptional (read : Value → Except DecodeError α) : Value → Except DecodeError (Option α)
  | null => .ok none
  | v => (read v).map some

/-- Decode the items of a sequence in order; `null` is the empty one. -/
def decodeList (read : Value → Except DecodeError α) (v : Value) : Except DecodeError (List α) :=
  match v.untagged with
  | null => .ok []
  | seq items => items.mapM read
  | other => .error (.unexpected other.found .sequence)

/-- The first key that is no text, as a fault. -/
def badKey? : Nat → List (Value × Value) → Option Fault
  | _, [] => none
  | i, (k, _) :: rest =>
      match k.keyText? with
      | some _ => badKey? (i + 1) rest
      | none => some ⟨some i, .unexpected k.untagged.found .fieldName⟩

/-- Decode a record with the given fields; `null` is a record without any. -/
def decodeRecord (record : String) (known : List String) (build : Fields Value → Form α)
    (v : Value) : Except DecodeError α :=
  let decodeEntries := fun entries : List (Value × Value) =>
    let fields : Fields Value :=
      ⟨entries.map fun e => (e.1.keyText?.getD "", e.2), .missing⟩
    fields.finish known ((build fields).noting (badKey? 0 entries))
  match v.untagged with
  | null => decodeEntries []
  | map entries => decodeEntries entries
  | other => .error (.unexpected other.found (.record record))

end Value

end Stepwise.Yaml
