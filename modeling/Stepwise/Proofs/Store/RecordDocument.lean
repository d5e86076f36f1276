import Stepwise.Proofs.Decode.InOrder
import Stepwise.Store.RecordFile

/-!
# What a record file says

A record file is blank or a text for a list of records. Every field that stands in a record has the
meaning of its value, and every other one its default; the names in the data are distinct. What
stands in unknown fields does not matter, as long as it can be passed over.
-/

namespace Stepwise

open Fragment (Reads MeansList MeansMap MeansText MeansWhole)

namespace Variable

/-- What was read is a record. -/
structure MeantBy (v : Fragment) (r : Variable) : Prop where
  isRecord : v.IsRecord knownFields
  id : v.FieldMeans knownFields "_id" (MeansWhole fun w id => decodeIdentifier w = .ok id) "" r.id
  name : v.FieldMeans knownFields "name" MeansText "" r.name
  object : v.FieldMeans knownFields "object" MeansText "" r.object
  data : v.FieldMeans knownFields "data" MeansMap [] r.data

theorem reads_decodeInOrder : Reads decodeInOrder MeantBy := by
  intro v r
  have hid : Reads (Fragment.decodeWhole decodeIdentifier)
      (MeansWhole fun w id => decodeIdentifier w = .ok id) := Reads.whole fun _ _ => Iff.rfl
  rw [decodeInOrder, Fragment.decodeRecord_eq_ok_iff (by decide), form]
  simp only [Form.seq_eq_read_iff, Form.map_eq_read_iff, hid.withDefault, Reads.text.withDefault,
    Reads.map.withDefault]
  constructor
  · rintro ⟨hrecord, _, ⟨_, ⟨_, ⟨id, hid, rfl⟩, name, hname, rfl⟩, object, hobject, rfl⟩,
      data, hdata, rfl⟩
    exact ⟨hrecord, hid, hname, hobject, hdata⟩
  · rintro ⟨hrecord, hid, hname, hobject, hdata⟩
    exact ⟨hrecord, _, ⟨_, ⟨_, ⟨_, hid, rfl⟩, _, hname, rfl⟩, _, hobject, rfl⟩, _, hdata, rfl⟩

/-- The names in a record that was read are distinct. -/
theorem MeantBy.isNormal {v : Fragment} {r : Variable} (h : MeantBy v r) : r.toJson.IsNormal := by
  have hdata : (Json.obj r.data).IsNormal := by
    have hfield := h.data
    rw [Fragment.FieldMeans] at hfield
    split at hfield
    · obtain ⟨members, -, hnormal⟩ := hfield
      exact hnormal ▸ Json.isNormal_normal _
    · rw [hfield]
      simp [Ordered.keys]
  simpa [toJson, Ordered.keys] using hdata

/-- A record with distinct names means itself when it is read whole. -/
theorem meantBy_toJson {r : Variable} (h : r.toJson.IsNormal) : MeantBy (.ofJson r.toJson) r where
  isRecord := Fragment.isRecord_ofJson (by simp [Ordered.keys])
  id := ⟨.str r.id, rfl, rfl⟩
  name := rfl
  object := rfl
  data := ⟨r.data, rfl, ((Json.isNormal_obj_iff _).mp h).2 ("data", .obj r.data) (by simp)⟩

end Variable

namespace RecordFile

/-- The text of a file is for a list of records. -/
def SaidBy (text : String) (records : List Variable) : Prop :=
  Fragment.SaidBy (MeansList Variable.MeantBy) text records

theorem isNormal_of_saidBy {text : String} {records : List Variable} (h : SaidBy text records) :
    ∀ r ∈ records, r.toJson.IsNormal := by
  obtain ⟨v, -, items, -, hmeant⟩ := h
  induction hmeant with
  | nil => simp
  | cons hfirst _ ih => exact List.forall_mem_cons.mpr ⟨hfirst.isNormal, ih⟩

/-- A text has the records that it says and no others, and a blank one has none. -/
theorem ofText_eq_ok_iff {path text : String} {records : List Variable} :
    ofText path text = .ok records ↔
      (Text.isBlankText text = true ∧ records = []) ∨
        (Text.isBlankText text = false ∧ SaidBy text records) := by
  rw [SaidBy, ← Variable.reads_decodeInOrder.list.document (faultOf text), ofText]
  cases Text.isBlankText text with
  | true => simp [eq_comm]
  | false => cases Fragment.decodeDocument _ _ text <;> simp

/-- A number that is too large for any reading is passed over in an unknown field, and so is half of
a surrogate pair. -/
example :
    (ofText "r.json" "[\x7b\"_id\":\"1\",\"c\":1e999\x7d,\x7b\"c\":\"\\ud83d\"\x7d]").toOption ==
      some [⟨"1", "", "", []⟩, ⟨"", "", "", []⟩] := by
  decide +kernel

end RecordFile

end Stepwise
