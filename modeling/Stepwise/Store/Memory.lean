import Stepwise.Variable
import Stepwise.Store.Error

/-!
# Records in memory

Records in the order in which their identifiers were first stored. Storing a record under an
identifier that is present replaces the old record in its place.
-/

namespace Stepwise

/-- Records by identifier. -/
abbrev RecordTable := Ordered Variable

namespace RecordTable

/-- Each record under its own identifier; of two with one identifier the later wins. -/
def ofRecords (records : List Variable) : RecordTable :=
  Ordered.ofPairs (records.map fun r => (r.id, r))

/-- Store a record under its own identifier. -/
def insert (table : RecordTable) (record : Variable) : RecordTable :=
  table.set record.id record

/-- Replace the record that is stored under an identifier. -/
def update (table : RecordTable) (id : String) (record : Variable) :
    Except StoreError RecordTable :=
  if table.has id then .ok (table.set id record) else .error (.recordNotFound id)

/-- The records of a collection, or all of them. -/
def list (table : RecordTable) (object : Option String) : List Variable :=
  inCollection object table.values
where
  /-- The records of a list that belong to a collection, if one is given. -/
  inCollection (object : Option String) (records : List Variable) : List Variable :=
    match object with
    | none => records
    | some object => records.filter fun r => r.object == object

end RecordTable

end Stepwise
