import Stepwise.Proofs.Store.Refinement

/-!
# Records under their own identifiers

A record is inserted under its own identifier, but an update stores under the identifier that the
caller names, whatever identifier the record has. A record of another identifier goes astray: it is
found under the one it replaced, and under its own one it is missing. It stays there until another
call stores under the same place. So the records of a table are under their own identifiers exactly
when every update that went astray has been made good in this way.
-/

namespace Stepwise

namespace RecordTable

/-- A call that stores a record. -/
inductive Writing where
  | insert (record : Variable)
  | update (id : String) (record : Variable)

namespace Writing

/-- The identifier under which a call stores. -/
def place : Writing → String
  | insert record => record.id
  | update id _ => id

def record : Writing → Variable
  | insert record => record
  | update _ record => record

/-- Whether a table takes a record: an update needs one to replace. -/
def isTaken (table : RecordTable) : Writing → Bool
  | insert _ => true
  | update id _ => table.has id

/-- The table after a call; a refused update leaves it as it was. -/
def applyTo (table : RecordTable) : Writing → RecordTable
  | insert record => table.insert record
  | update id record =>
      match table.update id record with
      | .ok written => written
      | .error _ => table

theorem applyTo_of_isTaken {table : RecordTable} {w : Writing} (h : w.isTaken table = true) :
    w.applyTo table = Ordered.set table w.place w.record := by
  cases w with
  | insert record => rfl
  | update id record =>
      have hhas : table.has id = true := h
      simp only [applyTo, RecordTable.update, if_pos hhas, place, Writing.record]

theorem applyTo_of_refused {table : RecordTable} {w : Writing} (h : w.isTaken table = false) :
    w.applyTo table = table := by
  cases w with
  | insert record => cases h
  | update id record =>
      have hhas : table.has id = false := h
      simp only [applyTo, RecordTable.update, hhas, Bool.false_eq_true, if_false]

/-- What is refused would have gone to a place without a record. -/
theorem find?_of_refused {table : RecordTable} {w : Writing} (h : w.isTaken table = false) :
    Ordered.find? table w.place = none := by
  cases w with
  | insert record => cases h
  | update id record => exact Option.not_isSome_iff_eq_none.mp (Bool.eq_false_iff.mp h)

theorem find?_applyTo_of_ne {table : RecordTable} {w : Writing} {id : String}
    (h : w.place ≠ id) : Ordered.find? (w.applyTo table) id = Ordered.find? table id := by
  cases htaken : w.isTaken table with
  | true => rw [applyTo_of_isTaken htaken, Ordered.find?_set, if_neg h]
  | false => rw [applyTo_of_refused htaken]

theorem nodup_applyTo {table : RecordTable} (h : table.keys.Nodup) (w : Writing) :
    (w.applyTo table).keys.Nodup := by
  cases htaken : w.isTaken table with
  | true =>
      rw [applyTo_of_isTaken htaken]
      exact Ordered.keys_nodup_set h w.place w.record
  | false =>
      rw [applyTo_of_refused htaken]
      exact h

end Writing

/-- The table after calls in turn. -/
def after (table : RecordTable) (calls : List Writing) : RecordTable :=
  calls.foldl (fun table w => w.applyTo table) table

variable {table : RecordTable}

theorem after_concat (table : RecordTable) (calls : List Writing) (w : Writing) :
    table.after (calls ++ [w]) = w.applyTo (table.after calls) := by
  simp only [after, List.foldl_append, List.foldl_cons, List.foldl_nil]

theorem nodup_after (h : table.keys.Nodup) (calls : List Writing) :
    (table.after calls).keys.Nodup := by
  induction calls using List.reverseRecOn with
  | nil => exact h
  | append_singleton calls w ih =>
      rw [after_concat]
      exact w.nodup_applyTo ih

/-- Every update that stores a record of another identifier under this one is followed by a call
that stores under it again. -/
def MadeGood (table : RecordTable) (calls : List Writing) (id : String) : Prop :=
  ∀ front record back, calls = front ++ .update id record :: back →
    (table.after front).has id = true → record.id ≠ id → ∃ later ∈ back, later.place = id

/-- A call among others is the last of them, or it stands before the last. -/
theorem split_concat {calls front back : List Writing} {w x : Writing}
    (h : calls ++ [w] = front ++ x :: back) :
    (calls = front ∧ w = x ∧ back = []) ∨
      ∃ others, calls = front ++ x :: others ∧ back = others ++ [w] := by
  rcases List.eq_nil_or_concat back with rfl | ⟨others, last, rfl⟩
  · obtain ⟨hfront, hlast⟩ := List.append_inj' h rfl
    exact Or.inl ⟨hfront, (List.cons.inj hlast).1, rfl⟩
  · rw [List.concat_eq_append, ← List.cons_append, ← List.append_assoc] at h
    obtain ⟨hcalls, hlast⟩ := List.append_inj' h rfl
    rw [List.concat_eq_append, (List.cons.inj hlast).1]
    exact Or.inr ⟨others, hcalls, rfl⟩

/-- A call elsewhere makes nothing good. -/
theorem madeGood_concat_of_ne {calls : List Writing} {w : Writing} {id : String}
    (h : w.place ≠ id) : table.MadeGood (calls ++ [w]) id ↔ table.MadeGood calls id := by
  constructor
  · rintro hgood front record back rfl hhas hne
    obtain ⟨later, hlater, hplace⟩ := hgood front record (back ++ [w]) (by simp) hhas hne
    rcases List.mem_append.mp hlater with hback | hlast
    · exact ⟨later, hback, hplace⟩
    · rw [List.mem_singleton.mp hlast] at hplace
      exact absurd hplace h
  · intro hgood front record back hcalls hhas hne
    rcases split_concat hcalls with ⟨-, rfl, -⟩ | ⟨others, hsplit, rfl⟩
    · exact absurd rfl h
    · obtain ⟨later, hlater, hplace⟩ := hgood front record others hsplit hhas hne
      exact ⟨later, List.mem_append_left _ hlater, hplace⟩

/-- The last call to a place decides it, whatever was there before. -/
theorem madeGood_concat_of_eq {calls : List Writing} {w : Writing} {id : String}
    (h : w.place = id) : table.MadeGood (calls ++ [w]) id ↔
      (w.isTaken (table.after calls) = true → w.record.id = id) := by
  constructor
  · intro hgood htaken
    cases w with
    | insert record => exact h
    | update place record =>
        obtain rfl : place = id := h
        by_contra hne
        obtain ⟨later, hlater, -⟩ := hgood calls record [] rfl htaken hne
        cases hlater
  · intro hown front record back hcalls hhas hne
    rcases split_concat hcalls with ⟨rfl, rfl, -⟩ | ⟨others, -, rfl⟩
    · exact absurd (hown hhas) hne
    · exact ⟨w, List.mem_append_right _ List.mem_cons_self, h⟩

/-- What stands under an identifier is a record of it exactly when all that went astray there has
been made good. The induction is over the calls from the last one, since the last call to a place
decides what is found. -/
theorem own_after_iff {id : String} (hown : ∀ r, table.find? id = some r → r.id = id)
    (calls : List Writing) :
    (∀ r, (table.after calls).find? id = some r → r.id = id) ↔ table.MadeGood calls id := by
  induction calls using List.reverseRecOn with
  | nil =>
      refine iff_of_true hown ?_
      intro front record back hcalls
      exact absurd hcalls (by simp)
  | append_singleton calls w ih =>
      rw [after_concat]
      by_cases hplace : w.place = id
      · rw [madeGood_concat_of_eq hplace]
        subst hplace
        cases htaken : w.isTaken (table.after calls) with
        | true =>
            rw [Writing.applyTo_of_isTaken htaken, Ordered.find?_set_self]
            simp
        | false =>
            rw [Writing.applyTo_of_refused htaken, Writing.find?_of_refused htaken]
            simp
      · rw [Writing.find?_applyTo_of_ne hplace, madeGood_concat_of_ne hplace]
        exact ih

/-- After any calls to a table that was made from records, every record that is found carries the
identifier under which it is found, and every record of the listing is found under its own one,
exactly when each update that was taken with a record of another identifier is followed by a call
that stores under the same identifier again. -/
theorem under_own_identifiers_iff (records : List Variable) (calls : List Writing) :
    let table := (ofRecords records).after calls
    ((∀ id r, table.find? id = some r → r.id = id) ∧
      ∀ r ∈ table.list none, table.find? r.id = some r) ↔
    ∀ front id record back, calls = front ++ .update id record :: back →
      ((ofRecords records).after front).has id = true → record.id ≠ id →
      ∃ later ∈ back, later.place = id := by
  intro table
  have hsound := sound_ofRecords records
  have hiff (id : String) : (∀ r, table.find? id = some r → r.id = id) ↔
      (ofRecords records).MadeGood calls id :=
    own_after_iff (fun r hr => hsound.own _ (Ordered.mem_of_find? hr)) calls
  constructor
  · rintro ⟨hfound, -⟩ front id record back
    exact (hiff id).mp (hfound id) front record back
  · intro hgood
    have hfound (id : String) : ∀ r, table.find? id = some r → r.id = id :=
      (hiff id).mpr fun front record back => hgood front id record back
    refine ⟨hfound, fun r hr => ?_⟩
    obtain ⟨slot, hslot, rfl⟩ := List.mem_map.mp hr
    have hfind := Ordered.find?_of_mem (nodup_after hsound.distinct calls) hslot
    rw [hfound slot.1 slot.2 hfind]
    exact hfind

/-- An update with a record of another identifier: it is found where it does not belong, and under
its own identifier nothing is found although it is listed. -/
theorem update_goes_astray :
    let astray : Variable := ⟨"2", "a", "o", []⟩
    let table := (ofRecords [⟨"1", "a", "o", []⟩]).after [.update "1" astray]
    table.find? "1" = some astray ∧ table.list none = [astray] ∧ table.find? astray.id = none :=
  ⟨rfl, rfl, rfl⟩

end RecordTable

end Stepwise
