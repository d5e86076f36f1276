import Stepwise.Proofs.Ordered
import Stepwise.Run.Task
import Stepwise.Store.Memory

/-!
# Laws of record tables

A record table that is made from records holds each record once, under its own identifier. To
amend a table is to assign further fields to its records, as many as one likes to each. Amending
changes nothing but the fields of the records, and doing it twice is doing it once with the
assignments of both times.
-/

namespace Stepwise

namespace Variable

/-- The record with fields set one after another. -/
def withFields (r : Variable) (assigned : List (String × Json)) : Variable :=
  { r with data := r.data.setAll assigned }

@[simp] theorem withFields_nil (r : Variable) : r.withFields [] = r := rfl

theorem withFields_append (r : Variable) (first second : List (String × Json)) :
    (r.withFields first).withFields second = r.withFields (first ++ second) := by
  simp only [withFields, Ordered.setAll_append]

end Variable

/-- The fields that an update assigns, with their values. -/
def UpdateRecord.assignments (settings : UpdateRecord) : List (String × Json) :=
  settings.fields.map fun a => (a.field, a.value)

theorem UpdateRecord.applyTo_eq (settings : UpdateRecord) (record : Variable) :
    settings.applyTo record = record.withFields settings.assignments := by
  obtain ⟨target, fields⟩ := settings
  induction fields generalizing record with
  | nil => rfl
  | cons a rest ih => exact ih (record.withField a.field a.value)

namespace RecordTable

/-- Every record is stored once, under its own identifier. -/
structure Sound (table : RecordTable) : Prop where
  distinct : table.keys.Nodup
  own : ∀ slot ∈ table, slot.2.id = slot.1

theorem sound_ofRecords (records : List Variable) : (ofRecords records).Sound where
  distinct := Ordered.keys_nodup_ofPairs _
  own slot hslot := by
    obtain ⟨r, -, rfl⟩ := List.mem_map.mp (Ordered.mem_of_mem_ofPairs hslot)
    rfl

/-- The table with fields assigned to its records. -/
def amended (table : RecordTable) (assigned : String → List (String × Json)) : RecordTable :=
  table.map fun slot => (slot.1, slot.2.withFields (assigned slot.1))

variable (table : RecordTable)

/-- Without assignments to its records a table stays as it is. -/
theorem amended_eq_self {assigned : String → List (String × Json)}
    (h : ∀ id ∈ table.keys, assigned id = []) : table.amended assigned = table := by
  refine (List.map_congr_left fun slot hslot => ?_).trans (List.map_id table)
  rw [h slot.1 (List.mem_map_of_mem hslot), Variable.withFields_nil]
  rfl

theorem amended_amended (first second : String → List (String × Json)) :
    (table.amended first).amended second = table.amended fun id => first id ++ second id := by
  simp only [amended, List.map_map, Function.comp_def, Variable.withFields_append]

@[simp] theorem keys_amended (assigned : String → List (String × Json)) :
    (table.amended assigned).keys = table.keys := by
  simp only [Ordered.keys, amended, List.map_map, Function.comp_def]

theorem find?_amended (assigned : String → List (String × Json)) (id : String) :
    (table.amended assigned).find? id =
      (table.find? id).map fun r => r.withFields (assigned id) := by
  induction table with
  | nil => rfl
  | cons slot rest ih =>
      obtain ⟨name, record⟩ := slot
      by_cases hid : name = id
      · simp [amended, Ordered.find?_cons, hid]
      · rw [amended] at ih
        simp [amended, Ordered.find?_cons, hid, ih]

variable {table}

theorem Sound.amended (h : table.Sound) (assigned : String → List (String × Json)) :
    (table.amended assigned).Sound where
  distinct := by
    rw [keys_amended]
    exact h.distinct
  own slot hslot := by
    obtain ⟨old, hold, rfl⟩ := List.mem_map.mp hslot
    exact h.own old hold

/-- Putting a record back with fields assigned amends the table at this record alone. -/
theorem Sound.set_withFields (h : table.Sound) {id : String} {record : Variable}
    (hrecord : table.find? id = some record) (assigned : List (String × Json)) :
    table.set id (record.withFields assigned) =
      table.amended fun other => if other = id then assigned else [] := by
  have hmem : id ∈ table.keys := by
    rw [← Ordered.has_iff_mem_keys, Ordered.has, hrecord]
    rfl
  rw [Ordered.set_eq_map h.distinct hmem, RecordTable.amended]
  refine List.map_congr_left fun slot hslot => ?_
  by_cases hid : slot.1 = id
  · have hfound := Ordered.find?_of_mem h.distinct hslot
    rw [hid, hrecord] at hfound
    rw [if_pos hid, if_pos hid, Option.some.inj hfound]
  · rw [if_neg hid, if_neg hid, Variable.withFields_nil]

end RecordTable

end Stepwise
