import Stepwise.Pool.Entry

/-!
# The pool

The pool is the ordered map of entries that the steps of a run share. Its input is a list of
variables, each stored under its own name, or a map from names to entries.
-/

namespace Stepwise

/-- The entries that the steps of a run share, in the order in which their keys were first set. -/
abbrev Pool := Ordered PoolEntry

namespace Pool

/-- Each variable under its own name; of two with one name the later wins. -/
def ofVariables (vars : List Variable) : Pool :=
  Ordered.ofPairs (vars.map fun v => (v.name, PoolEntry.var v))

/-- The variable stored under a key. -/
def variableAt? (pool : Pool) (key : String) : Option Variable :=
  (pool.find? key).bind PoolEntry.asVariable?

/-- The last variable in the pool that has this name of its own, whatever its key. -/
def variableNamed? (pool : Pool) (name : String) : Option Variable :=
  (pool.reverse.filterMap fun slot => slot.2.asVariable?).find? fun v => v.name == name

def toJson (pool : Pool) : Json :=
  .obj (pool.map fun slot => (slot.1, slot.2.toJson))

end Pool

/-- The input a pool is made from. -/
inductive PoolInput where
  | sequence (vars : List Variable)
  | mapping (entries : Ordered PoolEntry)

namespace PoolInput

def empty : PoolInput := mapping []

def pool : PoolInput → Pool
  | sequence vars => Pool.ofVariables vars
  | mapping entries => entries

def toJson : PoolInput → Json
  | sequence vars => .arr (vars.map Variable.toJson)
  | mapping entries => Pool.toJson entries

/-- A list of variables or a map of entries; whatever is wrong with it, it is no input. -/
def decode (v : Json) : Except DecodeError PoolInput :=
  match v with
  | .arr items =>
      match Json.decodeEach Variable.decode items with
      | .ok vars => .ok (sequence vars)
      | .error _ => .error (.noMatch "PoolInput")
  | .obj members => (Json.decodeEachMember PoolEntry.decode [] members).map mapping
  | _ => .error (.noMatch "PoolInput")

end PoolInput

end Stepwise
