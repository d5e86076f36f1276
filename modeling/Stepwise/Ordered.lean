/-!
# Ordered maps

A map from names to values that keeps the order in which names were first set. Setting a name
that is present replaces its value in place; a new name goes to the end.
-/

namespace Stepwise

/-- Entries in the order in which their names were first set. -/
abbrev Ordered (α : Type) := List (String × α)

namespace Ordered

variable {α : Type}

/-- The value stored under a name. -/
def find? (entries : Ordered α) (key : String) : Option α :=
  match entries with
  | [] => none
  | (name, value) :: rest => if name = key then some value else find? rest key

/-- Whether a name is present. -/
def has (entries : Ordered α) (key : String) : Bool :=
  (entries.find? key).isSome

/-- Store a value, in place when the name is present and at the end otherwise. -/
def set (entries : Ordered α) (key : String) (value : α) : Ordered α :=
  match entries with
  | [] => [(key, value)]
  | (name, old) :: rest =>
      if name = key then (name, value) :: rest else (name, old) :: set rest key value

/-- Store every pair in turn, so that a repeated name keeps its first place and last value. -/
def setAll (entries : Ordered α) (pairs : List (String × α)) : Ordered α :=
  pairs.foldl (fun acc pair => acc.set pair.1 pair.2) entries

/-- The ordered map of a list of pairs. -/
def ofPairs (pairs : List (String × α)) : Ordered α :=
  setAll [] pairs

/-- The names in order. -/
def keys (entries : Ordered α) : List String :=
  entries.map Prod.fst

/-- The values in order. -/
def values (entries : Ordered α) : List α :=
  entries.map Prod.snd

end Ordered

end Stepwise
