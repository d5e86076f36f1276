import Stepwise.Variable

/-!
# Entries of the pool

A slot of the pool holds a variable, the mark of a failed step, or any other value. In documents
a failure is `false`, so a value is sorted into these three kinds by its shape: `false` is a
failure, and an object with a `name` or `data` that decodes as a variable is one.
-/

namespace Stepwise

/-- What a slot of the pool holds. -/
inductive PoolEntry where
  | var (value : Variable)
  | failed
  | value (value : Json)
  deriving BEq

namespace PoolEntry

def asVariable? : PoolEntry → Option Variable
  | var v => some v
  | _ => none

def isFailed : PoolEntry → Bool
  | failed => true
  | _ => false

/-- Variables are true, failures false, and other values as they are. -/
def truthy : PoolEntry → Bool
  | var _ => true
  | failed => false
  | value v => v.truthy

def toJson : PoolEntry → Json
  | var v => v.toJson
  | failed => .bool false
  | value v => v

/-- The name of the kind of an entry. -/
def kindName : PoolEntry → String
  | var _ => "variable"
  | failed => "failed"
  | value _ => "value"

/-- Objects that are taken for variables when they decode as one. -/
def looksLikeVariable (members : List (String × Json)) : Bool :=
  Ordered.has members "name" || Ordered.has members "data"

/-- Sort a value into its kind. -/
def ofJson (v : Json) : PoolEntry :=
  match v with
  | .bool false => failed
  | .obj members =>
      if looksLikeVariable members then
        match Variable.decode v with
        | .ok v => var v
        | .error _ => value v
      else value v
  | _ => value v

def decode (v : Json) : Except DecodeError PoolEntry :=
  .ok (ofJson v.normal)

end PoolEntry

end Stepwise
