import Stepwise.Pool

/-!
# Variables looked up in a pool

A variable is found by the key of its slot, or by a name of its own. More than one variable can
have the same name; the last one in the pool is found then.
-/

namespace Stepwise

theorem PoolEntry.asVariable?_eq_some_iff (entry : PoolEntry) (v : Variable) :
    entry.asVariable? = some v ↔ entry = .var v := by
  cases entry <;> simp [asVariable?]

namespace Pool

theorem variableAt?_eq_some_iff (pool : Pool) (key : String) (v : Variable) :
    pool.variableAt? key = some v ↔ pool.find? key = some (.var v) := by
  simp only [variableAt?, Option.bind_eq_some_iff, PoolEntry.asVariable?_eq_some_iff,
    exists_eq_right]

/-! ## By their own names -/

/-- No variable of the pool has a name. -/
def NamesNone (pool : Pool) (name : String) : Prop :=
  ∀ slot ∈ pool, ∀ v, slot.2 = .var v → v.name ≠ name

/-- A variable is the last one of the pool that has a name. -/
def NamesLast (pool : Pool) (name : String) (source : Variable) : Prop :=
  source.name = name ∧ ∃ before key after,
    pool = before ++ (key, .var source) :: after ∧ NamesNone after name

theorem variableNamed?_append (xs ys : Pool) (name : String) :
    variableNamed? (xs ++ ys) name = (variableNamed? ys name).or (variableNamed? xs name) := by
  simp only [variableNamed?, List.reverse_append, List.filterMap_append, List.find?_append]

theorem variableNamed?_eq_none_iff (pool : Pool) (name : String) :
    variableNamed? pool name = none ↔ NamesNone pool name := by
  simp only [variableNamed?, List.find?_eq_none, List.mem_filterMap, List.mem_reverse,
    PoolEntry.asVariable?_eq_some_iff, beq_iff_eq, NamesNone]
  constructor
  · intro h slot hslot v hv
    exact h v ⟨slot, hslot, hv⟩
  · rintro h v ⟨slot, hslot, hv⟩
    exact h slot hslot v hv

theorem variableNamed?_of_namesLast {pool : Pool} {name : String} {source : Variable}
    (h : NamesLast pool name source) : variableNamed? pool name = some source := by
  obtain ⟨hname, before, key, after, rfl, hafter⟩ := h
  have hslot : variableNamed? [(key, .var source)] name = some source := by
    simp [variableNamed?, PoolEntry.asVariable?, hname]
  rw [← List.singleton_append, variableNamed?_append, variableNamed?_append,
    (variableNamed?_eq_none_iff after name).mpr hafter, hslot]
  rfl

end Pool

end Stepwise
