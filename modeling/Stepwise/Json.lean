import Stepwise.Ordered
import Stepwise.Number.Shortest

/-!
# JSON values

A value keeps the members of its objects in order. Two values are the `same` when they agree up to
the order of members and numbers are equal as numbers of one kind: the integer 1 is not the
floating point 1.0. `normal` gives every object distinct names, a repeated name keeping its first
place and its last value.
-/

namespace Stepwise

/-- A number in a document: an integer, or a floating point number. -/
inductive Number where
  | int (value : Int)
  | float (value : Double)
  deriving DecidableEq, Repr

namespace Number

/-- Equal numbers of one kind. -/
def same : Number → Number → Bool
  | .int a, .int b => a == b
  | .float a, .float b => a.same b
  | _, _ => false

/-- The nearest floating point number. -/
def toDouble : Number → Double
  | .int n => Double.ofInt n
  | .float d => d

def text : Number → String
  | .int n => toString n
  | .float d => d.text

end Number

/-- A JSON value; the members of an object stand in order. -/
inductive Json where
  | null
  | bool (value : Bool)
  | num (value : Number)
  | str (value : String)
  | arr (items : List Json)
  | obj (members : List (String × Json))
  deriving Repr, Inhabited

namespace Json

mutual

/-- Equality up to the order of members. -/
def same : Json → Json → Bool
  | null, null => true
  | bool a, bool b => a == b
  | num a, num b => a.same b
  | str a, str b => a == b
  | arr xs, arr ys => sameItems xs ys
  | obj xs, obj ys => xs.length == ys.length && sameMembers xs ys
  | _, _ => false

def sameItems : List Json → List Json → Bool
  | [], [] => true
  | x :: xs, y :: ys => x.same y && sameItems xs ys
  | _, _ => false

/-- Every member of the first list has the same value in the second. -/
def sameMembers : List (String × Json) → List (String × Json) → Bool
  | [], _ => true
  | (k, v) :: rest, ys =>
      (match Ordered.find? ys k with
        | some w => v.same w
        | none => false) && sameMembers rest ys

end

instance : BEq Json := ⟨same⟩

mutual

/-- Every object with distinct names. -/
def normal : Json → Json
  | arr items => arr (normalItems items)
  | obj members => obj (normalMembers [] members)
  | v => v

def normalItems : List Json → List Json
  | [] => []
  | v :: rest => v.normal :: normalItems rest

/-- Add members one after another to those gathered so far. -/
def normalMembers (done : List (String × Json)) : List (String × Json) → List (String × Json)
  | [] => done
  | (k, v) :: rest => normalMembers (Ordered.set done k v.normal) rest

end

mutual

/-- Count of containers inside one another. -/
def depth : Json → Nat
  | arr items => depthItems items + 1
  | obj members => depthMembers members + 1
  | _ => 0

def depthItems : List Json → Nat
  | [] => 0
  | v :: rest => max v.depth (depthItems rest)

def depthMembers : List (String × Json) → Nat
  | [] => 0
  | (_, v) :: rest => max v.depth (depthMembers rest)

end

/-- The value of a member of an object; `none` for any other value. -/
def member? : Json → String → Option Json
  | obj members, key => Ordered.find? members key
  | _, _ => none

/-- `false`, `null`, zero and the empty text are false, every other value is true. -/
def truthy : Json → Bool
  | null => false
  | bool b => b
  | num n => !n.toDouble.isZero && !n.toDouble.isNaN
  | str s => s != ""
  | arr _ => true
  | obj _ => true

end Json

end Stepwise
