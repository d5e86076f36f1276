import Stepwise.Proofs.RecordTable
import Stepwise.Proofs.Run.Correspondence
import Stepwise.Proofs.Run.Surroundings

/-!
# Stores that behave like a list of records

The plainest store is a list of records: a record is the first one with its identifier, an update
replaces it in its place, and a listing keeps the order. A store refines another one when related
states give the same answers and stay related. Sequences of calls then have the same answers, also
when the store is opened anew between them. Records in memory refine the list as long as a record is
only ever stored under its own identifier.
-/

namespace Stepwise

/-- Giving the same answers and keeping states related is kept under sequencing. -/
def lockstep {σ τ : Type} (R : σ → τ → Prop) : Correspondence σ τ where
  Holds x y := ∀ s t, R s t → (x.run s).1 = (y.run t).1 ∧ R (x.run s).2 (y.run t).2
  pure _ _ _ h := ⟨rfl, h⟩
  bind hx hf s t h := by
    obtain ⟨hanswer, hnext⟩ := hx s t h
    rw [run_bind, run_bind, hanswer]
    exact hf _ _ _ hnext

/-- A call to a store of records. -/
inductive StoreCall where
  | findOne (id : String)
  | updateOne (id : String) (record : Variable)
  | list (object : Option String)

/-- What a store answers to a call that does not fail. -/
inductive StoreAnswer where
  | found (record : Option Variable)
  | updated
  | listed (records : List Variable)

namespace RecordStore

variable {ρ τ : Type}

section Calls

variable (store : RecordStore ρ)

def call : StoreCall → StateM ρ (Except StoreError StoreAnswer)
  | .findOne id => do return (← store.findOne id).map .found
  | .updateOne id record => do return (← store.updateOne id record).map fun _ => .updated
  | .list object => do return (← store.listing object).map .listed

/-- Calls that follow each other, with their answers in order. -/
def calls : List StoreCall → StateM ρ (List (Except StoreError StoreAnswer))
  | [] => return []
  | c :: rest => do
      let answer ← store.call c
      let others ← calls rest
      return answer :: others

/-- Calls between which the store is opened anew at every break. -/
def sessions : List (List StoreCall) → StateM ρ (List (Except StoreError StoreAnswer))
  | [] => return []
  | opened :: rest => do
      let answers ← store.calls opened
      let others ← sessions rest
      return answers ++ others

theorem calls_append (xs ys : List StoreCall) (records : ρ) :
    (store.calls (xs ++ ys)).run records =
      (((store.calls xs).run records).1 ++
          ((store.calls ys).run ((store.calls xs).run records).2).1,
        ((store.calls ys).run ((store.calls xs).run records).2).2) := by
  induction xs generalizing records with
  | nil => rfl
  | cons c rest ih =>
      simp only [List.cons_append, calls, run_bind, run_pure, ih]

/-- A store keeps nothing but its state, so that opening it anew makes no difference. -/
theorem sessions_eq_calls (opened : List (List StoreCall)) :
    store.sessions opened = store.calls opened.flatten := by
  induction opened with
  | nil => rfl
  | cons first rest ih =>
      apply StateT.ext
      intro records
      rw [List.flatten_cons, calls_append]
      simp only [sessions, run_bind, run_pure, ih]

end Calls

/-! ## Lists of records -/

/-- Records as a plain list. -/
def plain : RecordStore (List Variable) where
  findOne id := do return .ok ((← get).find? fun r => r.id == id)
  updateOne id record := do
    match (← get).findIdx? fun r => r.id == id with
    | none => return .error (.recordNotFound id)
    | some place => do
        set ((← get).set place record)
        return .ok ()
  list object records := .ok (records.filter fun r => object.all fun name => r.object == name)

theorem run_findOne_plain (id : String) (records : List Variable) :
    (plain.findOne id).run records = (.ok (records.find? fun r => r.id == id), records) := rfl

theorem run_updateOne_plain (id : String) (record : Variable) (records : List Variable) :
    (plain.updateOne id record).run records =
      match records.findIdx? fun r => r.id == id with
      | none => (.error (.recordNotFound id), records)
      | some place => (.ok (), records.set place record) := by
  have hget : (get : StateM (List Variable) (List Variable)).run records = (records, records) := rfl
  simp only [plain, run_bind, hget]
  cases records.findIdx? fun r => r.id == id with
  | none => rfl
  | some place => rfl

theorem inCollection_eq_filter (object : Option String) (records : List Variable) :
    RecordTable.list.inCollection object records =
      records.filter fun r => object.all fun name => r.object == name := by
  cases object with
  | none => exact (List.filter_eq_self.mpr fun _ _ => rfl).symm
  | some name => rfl

theorem list_none_plain (records : List Variable) : plain.list none records = .ok records :=
  congrArg Except.ok (inCollection_eq_filter none records).symm

/-- The list of all records in a file is what the file is read as. -/
theorem list_none_file (path : String) (files : FileTree) :
    (file path).list none files = RecordFile.read files path := by
  have hlist : (file path).list none files =
    (RecordFile.read files path).map (RecordTable.list.inCollection none) := rfl
  rw [hlist]
  cases RecordFile.read files path with
  | error e => rfl
  | ok records => rfl

/-! ## Refinement -/

/-- In related states both stores give the same answers and stay related, if the records that are
stored fit their identifiers; those that are found do. -/
structure Refines (R : ρ → τ → Prop) (Fits : String → Variable → Prop) (store : RecordStore ρ)
    (spec : RecordStore τ) : Prop where
  findOne : ∀ id, (lockstep R).Holds (store.findOne id) (spec.findOne id)
  updateOne : ∀ id record, Fits id record →
    (lockstep R).Holds (store.updateOne id record) (spec.updateOne id record)
  list : ∀ object s t, R s t → store.list object s = spec.list object t
  found : ∀ id s t record, R s t → ((store.findOne id).run s).1 = .ok (some record) →
    Fits id record

namespace Refines

variable {R : ρ → τ → Prop} {Fits : String → Variable → Prop} {store : RecordStore ρ}
  {spec : RecordStore τ} (h : Refines R Fits store spec)
include h

theorem listing (object : Option String) :
    (lockstep R).Holds (store.listing object) (spec.listing object) :=
  fun s t hst => ⟨h.list object s t hst, hst⟩

theorem call {c : StoreCall} (hc : ∀ id record, c = .updateOne id record → Fits id record) :
    (lockstep R).Holds (store.call c) (spec.call c) := by
  cases c with
  | findOne id => exact (lockstep R).bind (h.findOne id) fun _ => (lockstep R).pure _
  | updateOne id record =>
      exact (lockstep R).bind (h.updateOne id record (hc id record rfl)) fun _ =>
        (lockstep R).pure _
  | list object => exact (lockstep R).bind (h.listing object) fun _ => (lockstep R).pure _

/-- Sequences of calls have the same answers. -/
theorem calls {cs : List StoreCall}
    (hcs : ∀ id record, .updateOne id record ∈ cs → Fits id record) :
    (lockstep R).Holds (store.calls cs) (spec.calls cs) := by
  induction cs with
  | nil => exact (lockstep R).pure _
  | cons c rest ih =>
      have hfirst : ∀ id record, c = .updateOne id record → Fits id record := by
        intro id record hc
        exact hcs id record (hc ▸ List.mem_cons_self)
      have hrest : ∀ id record, .updateOne id record ∈ rest → Fits id record := by
        intro id record hmem
        exact hcs id record (List.mem_cons_of_mem _ hmem)
      exact (lockstep R).bind (h.call hfirst) fun _ =>
        (lockstep R).bind (ih hrest) fun _ => (lockstep R).pure _

end Refines

end RecordStore

/-! ## Records in memory -/

namespace RecordTable

variable {table : RecordTable}

/-- Under an identifier stands the first record that has it. -/
theorem find?_eq_find?_values (hown : ∀ slot ∈ table, slot.2.id = slot.1) (id : String) :
    table.find? id = table.values.find? fun r => r.id == id := by
  induction table with
  | nil => rfl
  | cons slot rest ih =>
      obtain ⟨name, record⟩ := slot
      obtain ⟨hfirst, hrest⟩ := List.forall_mem_cons.mp hown
      have ih := ih hrest
      simp only at hfirst
      by_cases hid : name = id
      · simp [Ordered.find?_cons, Ordered.values, hfirst, hid]
      · simpa [Ordered.find?_cons, Ordered.values, hfirst, hid] using ih

/-- Storing under an identifier that is present replaces the first record that has it. -/
theorem findIdx?_values (hown : ∀ slot ∈ table, slot.2.id = slot.1) (id : String)
    (record : Variable) :
    match table.values.findIdx? fun r => r.id == id with
    | none => table.has id = false
    | some place => table.has id = true ∧
        Ordered.values (table.set id record) = table.values.set place record := by
  induction table with
  | nil => rfl
  | cons slot rest ih =>
      obtain ⟨name, old⟩ := slot
      obtain ⟨hfirst, hrest⟩ := List.forall_mem_cons.mp hown
      have ih := ih hrest
      simp only at hfirst
      by_cases hid : name = id
      · simp [Ordered.values, List.findIdx?_cons, hfirst, hid, Ordered.has, Ordered.find?_cons,
          Ordered.set]
      · have hskip : (old.id == id) = false := by simpa [hfirst] using hid
        simp only [Ordered.values, List.map_cons, List.findIdx?_cons, hskip] at ih ⊢
        cases hplace : (rest.map Prod.snd).findIdx? fun r => r.id == id with
        | none =>
            rw [hplace] at ih
            simpa [Ordered.has, Ordered.find?_cons, hid] using ih
        | some place =>
            rw [hplace] at ih
            simpa [Ordered.has, Ordered.find?_cons, Ordered.set, hid] using ih

theorem Sound.set (h : table.Sound) {id : String} {record : Variable} (hid : record.id = id) :
    Sound (Ordered.set table id record) where
  distinct := Ordered.keys_nodup_set h.distinct id record
  own slot hslot := by
    rcases Ordered.mem_of_mem_set hslot with rfl | hold
    · exact hid
    · exact h.own slot hold

/-- The table holds the records of the list, each under its own identifier. -/
structure Lists (table : RecordTable) (records : List Variable) : Prop where
  sound : table.Sound
  values : table.values = records

end RecordTable

/-- Records in memory refine their list, if each record is stored under its own identifier. -/
theorem RecordStore.memory_refines_plain :
    Refines RecordTable.Lists (fun id record => record.id = id) memory plain where
  findOne id table records h := by
    refine ⟨?_, h⟩
    have hfind := RecordTable.find?_eq_find?_values h.sound.own id
    rw [h.values] at hfind
    exact congrArg Except.ok hfind
  updateOne id record hid table records h := by
    have hplace := RecordTable.findIdx?_values h.sound.own id record
    rw [h.values] at hplace
    rw [run_updateOne_memory, run_updateOne_plain]
    cases hfound : records.findIdx? fun r => r.id == id with
    | none =>
        rw [hfound] at hplace
        simp only [hplace, Bool.false_eq_true, if_false]
        exact ⟨trivial, h⟩
    | some place =>
        rw [hfound] at hplace
        obtain ⟨hhas, hvalues⟩ := hplace
        simp only [hhas, if_true]
        exact ⟨trivial, h.sound.set hid, hvalues⟩
  list object table records h := by
    rw [← h.values]
    exact congrArg Except.ok (inCollection_eq_filter object table.values)
  found id table records record h hfound := by
    have hfind : table.find? id = some record := Except.ok.inj hfound
    exact h.sound.own _ (Ordered.mem_of_find? hfind)

end Stepwise
