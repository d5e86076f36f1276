import Stepwise.Proofs.RecordTable
import Stepwise.Proofs.Run.Correspondence
import Stepwise.Proofs.Run.Surroundings
import Stepwise.Proofs.Run.Visits

/-!
# Records over whole runs

Over records in memory, a run amends the table by the assignments of the updates it comes to, one
after another, and does nothing else to it. An update reads the stored record and not the copy in
the pool, of which it takes the identifier alone, so it loses nothing that was assigned before.
The invariant is that every record is stored once, under its own identifier.
-/

namespace Stepwise

section Assignments

variable {σ : Type}

/-- The assignments that a visit makes to the record with an identifier: those of an update whose
entry of the pool is, at this moment, a variable with the identifier. -/
def Visit.assignmentsTo (id : String) (v : Visit σ) : List (String × Json) :=
  match v.step with
  | .task _ (.updateRecord settings) =>
      match v.moment.pool.variableAt? settings.target.value.name with
      | some x => if x.id = id then settings.assignments else []
      | none => []
  | _ => []

/-- The assignments that visits make to the record with an identifier, in order. -/
def assignedTo (id : String) (visits : List (Visit σ)) : List (String × Json) :=
  visits.flatMap (Visit.assignmentsTo id)

end Assignments

namespace Collaborators

/-! ## Only an update writes -/

section ReadOnly

variable {σ β : Type} (c : Collaborators σ β)

/-- The same collaborators with a store that takes no record. -/
def readOnly : Collaborators σ β :=
  { c with updateOne := fun id _ => pure (.error (.recordNotFound id)) }

theorem fillFields_readOnly (entries : List (String × String)) :
    c.readOnly.fillFields entries = c.fillFields entries := by
  induction entries with
  | nil => rfl
  | cons entry rest ih =>
      obtain ⟨name, text⟩ := entry
      rw [fillFields, fillFields, ih]
      rfl

theorem perform_readOnly (object : String) {task : Task}
    (htask : ∀ settings, task ≠ .updateRecord settings) (pool : Pool) :
    c.readOnly.perform object task pool = c.perform object task pool := by
  cases task with
  | findRecord condition => rfl
  | createPdf settings =>
      simp only [perform, createPdf, fillFields_readOnly]
      rfl
  | sendEmail settings => rfl
  | apiCall call => rfl
  | updateRecord settings => exact absurd rfl (htask settings)

end ReadOnly

/-- A store over which nothing is written takes no record. -/
theorem withStore_readOnly {ρ ε β : Type} (store : RecordStore ρ)
    (evaluate : Condition → Pool → ρ → StateM ε (Except EvaluationError Evaluation))
    (outside : Outside ε β) :
    (withStore store evaluate outside).readOnly =
      withStore { store with updateOne := fun id _ => pure (.error (.recordNotFound id)) }
        evaluate outside := rfl

/-- Leaving the records as they are is kept under sequencing. -/
def recordKeeping (ρ ε : Type) : Correspondence (ρ × ε) (ρ × ε) where
  Holds x _ := ∀ s, (x.run s).2.1 = s.1
  pure _ _ := rfl
  bind hx hf s := (hf _ _).trans (hx s)

variable {ε β : Type}

/-- Collaborators over records in memory. -/
abbrev inMemory
    (evaluate : Condition → Pool → RecordTable → StateM ε (Except EvaluationError Evaluation))
    (outside : Outside ε β) : Collaborators (RecordTable × ε) β :=
  withStore .memory evaluate outside

variable (evaluate : Condition → Pool → RecordTable → StateM ε (Except EvaluationError Evaluation))
  (outside : Outside ε β)

theorem readOnly_keeps :
    Corresponds (recordKeeping RecordTable ε) (inMemory evaluate outside).readOnly
      (inMemory evaluate outside).readOnly := by
  rw [withStore_readOnly]
  exact withStore_corresponds (fun _ _ => rfl) (fun _ _ _ => rfl) (fun _ _ => rfl) fun _ _ _ => rfl

/-- A task other than an update leaves the records as they are. -/
theorem performed_keeps (h : Heading) {task : Task}
    (htask : ∀ settings, task ≠ .updateRecord settings) (m : Moment (RecordTable × ε)) :
    ((inMemory evaluate outside).performed h task m).2.1 = m.state.1 := by
  rw [performed, ← perform_readOnly _ _ htask]
  exact (readOnly_keeps evaluate outside).perform h.object task m.pool m.state

/-! ## What a step does to the records -/

theorem updateOne_inMemory {id : String} {s : RecordTable × ε} {old : Variable}
    (hold : s.1.find? id = some old) (record : Variable) :
    ((inMemory evaluate outside).updateOne id record).run s =
      (.ok (), (s.1.set id record, s.2)) := by
  have hhas : s.1.has id = true := by
    rw [Ordered.has, hold]
    rfl
  have hwrite : (RecordStore.memory.updateOne id record).run s.1 =
      (.ok (), s.1.set id record) := by
    rw [RecordStore.run_updateOne_memory, if_pos hhas]
  change (_, (_, s.2)) = _
  rw [hwrite]

/-- An update fails without a variable and without a stored record with its identifier. Otherwise
the stored record is written back with the assignments, and it is the value of the step. -/
theorem performed_update (h : Heading) (settings : UpdateRecord)
    (m : Moment (RecordTable × ε)) :
    (inMemory evaluate outside).performed h (.updateRecord settings) m =
      match m.pool.variableAt? settings.target.value.name with
      | none => (.failed, m.state)
      | some x =>
          match m.state.1.find? x.id with
          | none => (.failed, m.state)
          | some record =>
              (.succeeded (.var (record.withFields settings.assignments)),
                (m.state.1.set x.id (record.withFields settings.assignments), m.state.2)) := by
  simp only [performed, perform, updateRecord, UpdateRecord.applyTo_eq]
  cases m.pool.variableAt? settings.target.value.name with
  | none => rfl
  | some x =>
      have hfind : ((inMemory evaluate outside).findOne x.id).run m.state =
        (.ok (m.state.1.find? x.id), m.state) := rfl
      simp only [run_bind, hfind]
      cases hrecord : m.state.1.find? x.id with
      | none => rfl
      | some record =>
          simp only [run_bind, updateOne_inMemory evaluate outside hrecord]
          rfl

/-- When an update fails, and what its value is otherwise. -/
theorem update_outcome (h : Heading) (settings : UpdateRecord) (m : Moment (RecordTable × ε)) :
    let outcome := ((inMemory evaluate outside).performed h (.updateRecord settings) m).1
    let entry := m.pool.variableAt? settings.target.value.name
    (outcome = .failed ↔ ∀ x, entry = some x → x.id ∉ m.state.1.keys) ∧
      ∀ x record, entry = some x → m.state.1.find? x.id = some record →
        outcome = .succeeded (.var (record.withFields settings.assignments)) := by
  intro outcome entry
  have houtcome : outcome = _ :=
    congrArg Prod.fst (performed_update evaluate outside h settings m)
  rw [show m.pool.variableAt? settings.target.value.name = entry from rfl] at houtcome
  cases hentry : entry with
  | none =>
      simp only [hentry] at houtcome
      exact ⟨⟨fun _ => nofun, fun _ => houtcome⟩, nofun⟩
  | some x =>
      cases hrecord : m.state.1.find? x.id with
      | none =>
          simp only [hentry, hrecord] at houtcome
          have hout : x.id ∉ m.state.1.keys := (Ordered.find?_eq_none_iff _ _).mp hrecord
          refine ⟨⟨fun _ y hy => Option.some.inj hy ▸ hout, fun _ => houtcome⟩, ?_⟩
          intro y record hy hstored
          rw [← Option.some.inj hy, hrecord] at hstored
          cases hstored
      | some record =>
          simp only [hentry, hrecord] at houtcome
          refine ⟨⟨fun hfailed => ?_, fun hout => ?_⟩, fun y stored hy hstored => ?_⟩
          · rw [houtcome] at hfailed
            cases hfailed
          · have hnone := (Ordered.find?_eq_none_iff _ _).mpr (hout x rfl)
            rw [hrecord] at hnone
            cases hnone
          · rw [← Option.some.inj hy, hrecord] at hstored
            rw [houtcome, Option.some.inj hstored]

/-- A step amends the records by the assignments of the visit to it. -/
theorem own_records (depth : Nat) (step : Step) {m : Moment (RecordTable × ε)}
    (hsound : m.state.1.Sound) :
    ((inMemory evaluate outside).own step m).state.1 =
      m.state.1.amended fun id => Visit.assignmentsTo id ⟨depth, step, m⟩ := by
  cases step with
  | task h task =>
      have howner : ((inMemory evaluate outside).own (.task h task) m).state =
        ((inMemory evaluate outside).performed h task m).2 := rfl
      by_cases hupdate : ∃ settings, task = .updateRecord settings
      · obtain ⟨settings, rfl⟩ := hupdate
        rw [howner, performed_update]
        simp only [Visit.assignmentsTo]
        cases m.pool.variableAt? settings.target.value.name with
        | none => exact (m.state.1.amended_eq_self fun _ _ => rfl).symm
        | some x =>
            cases hrecord : m.state.1.find? x.id with
            | none =>
                simp only [hrecord]
                refine (m.state.1.amended_eq_self fun id hid => if_neg fun hx => ?_).symm
                exact (Ordered.find?_eq_none_iff _ _).mp hrecord (hx ▸ hid)
            | some record =>
                simp only [hrecord, hsound.set_withFields hrecord, eq_comm]
      · have hnone : (fun id => Visit.assignmentsTo id ⟨depth, .task h task, m⟩) =
            fun _ => [] := by
          funext id
          cases task <;> first | rfl | exact absurd ⟨_, rfl⟩ hupdate
        rw [howner, hnone, m.state.1.amended_eq_self fun _ _ => rfl]
        exact performed_keeps evaluate outside h (fun settings ht => hupdate ⟨settings, ht⟩) m
  | branch h condition steps => exact (m.state.1.amended_eq_self fun _ _ => rfl).symm
  | unknown h type config => exact (m.state.1.amended_eq_self fun _ _ => rfl).symm

/-! ## What a run does to the records -/

theorem trail_records {m n : Moment (RecordTable × ε)} {vs : List (Visit (RecordTable × ε))}
    (htrail : Trail (inMemory evaluate outside) m vs n) (hsound : m.state.1.Sound) :
    n.state.1 = m.state.1.amended fun id => assignedTo id vs := by
  induction htrail with
  | nil m => exact (m.state.1.amended_eq_self fun _ _ => rfl).symm
  | @cons depth step m n rest tail ih =>
      have hown := own_records evaluate outside depth step hsound
      have hnext := hsound.amended fun id => Visit.assignmentsTo id ⟨depth, step, m⟩
      -- the next step meets the amended table, which is sound like the one before
      rw [← hown] at hnext
      rw [ih hnext, hown, RecordTable.amended_amended]
      rfl

/-- A run leaves the identifiers of the records and their order, and each record its identifier,
name and collection. Its fields are its first ones with the assignments of the updates that the
run came to for this record, one after another: no field is lost, the last assignment to a field
decides, and fields that are there keep their places. An update fails exactly if its entry of the
pool is no variable or has an identifier that is not among the records; otherwise its value is the
record with all assignments up to its own, whatever the copy in the pool says. -/
theorem records_after_run (records : List Variable) (workflow : Workflow) (pool : Pool) (e : ε) :
    let c := inMemory evaluate outside
    let table := RecordTable.ofRecords records
    let final := ((c.run workflow pool).run (table, e)).2.1
    let visits := c.visits 0 workflow.steps ⟨pool, (table, e)⟩
    (final = table.map fun slot =>
      (slot.1, { slot.2 with data := slot.2.data.setAll (assignedTo slot.1 visits) })) ∧
    (∀ slot ∈ table, slot.2.id = slot.1 ∧
      slot.2.data.keys <+: (slot.2.data.setAll (assignedTo slot.1 visits)).keys ∧
      ∀ field, (slot.2.data.setAll (assignedTo slot.1 visits)).find? field =
        (Ordered.find? (assignedTo slot.1 visits).reverse field).or (slot.2.data.find? field)) ∧
    (∀ before depth h settings m rest,
      visits = before ++ ⟨depth, .task h (.updateRecord settings), m⟩ :: rest →
      let outcome := (c.performed h (.updateRecord settings) m).1
      let entry := m.pool.variableAt? settings.target.value.name
      (outcome = .failed ↔ ∀ x, entry = some x → x.id ∉ table.keys) ∧
        ∀ x record, entry = some x → table.find? x.id = some record →
          outcome = .succeeded (.var (record.withFields
            (assignedTo x.id before ++ settings.assignments)))) := by
  intro c table final visits
  have hsound : table.Sound := RecordTable.sound_ofRecords records
  have htrail : Trail c ⟨pool, (table, e)⟩ visits (c.after workflow.steps ⟨pool, (table, e)⟩) :=
    c.visits_trail 0 workflow.steps ⟨pool, (table, e)⟩
  refine ⟨trail_records evaluate outside htrail hsound, ?_, ?_⟩
  · intro slot hslot
    exact ⟨hsound.own slot hslot, Ordered.keys_prefix_setAll _ _, Ordered.find?_setAll _ _⟩
  · intro before depth h settings m rest hvisits outcome entry
    rw [hvisits] at htrail
    -- amending keeps the identifiers, so a later update fails for the same ones as a first one
    have hmoment : m.state.1 = table.amended fun id => assignedTo id before :=
      trail_records evaluate outside htrail.upTo hsound
    obtain ⟨hfailed, hvalue⟩ := update_outcome evaluate outside h settings m
    rw [hmoment, RecordTable.keys_amended] at hfailed
    refine ⟨hfailed, fun x record hx hrecord => ?_⟩
    have hstored : m.state.1.find? x.id = some (record.withFields (assignedTo x.id before)) := by
      rw [hmoment, RecordTable.find?_amended, hrecord, Option.map_some]
    rw [← Variable.withFields_append]
    exact hvalue x _ hx hstored

/-- Two updates of one record through copies of it that both are out of date, one of the updates
inside a branch, and an update of a record that is not stored. -/
theorem stale_copies_lose_no_update :
    let outside : Outside Unit Unit :=
      { send := fun _ => pure (.ok ()), request := fun _ => pure (.error (.timeout ""))
        openForm := fun _ => pure (.ok ()), setTextField := fun _ _ => pure (.ok ())
        flatten := pure (.ok ()), save := pure (.ok ()), store := fun _ _ => pure (.ok ())
        stamp := pure "0" }
    let c := inMemory (fun _ _ _ => pure (.ok (.truth true))) outside
    let heading : Heading := ⟨"update", "update", ""⟩
    let update := fun target field value =>
      (⟨⟨none, ⟨target, none⟩⟩, [⟨field, value⟩]⟩ : UpdateRecord)
    let copy : PoolEntry := .var ⟨"1", "a", "o", []⟩
    let pool : Pool := [("p", copy), ("q", copy), ("r", .var ⟨"2", "b", "o", []⟩)]
    let steps : List Step := [.task heading (.updateRecord (update "p" "x" (.bool true))),
      .branch heading .always [.task heading (.updateRecord (update "q" "y" (.str "new")))]]
    let missing := update "r" "x" .null
    let table := RecordTable.ofRecords [⟨"1", "a", "o", [("x", .null)]⟩]
    let workflow : Workflow :=
      ⟨"w", none, none, steps ++ [.task heading (.updateRecord missing)]⟩
    ((c.run workflow pool).run (table, ())).2.1 =
      [("1", ⟨"1", "a", "o", [("x", .bool true), ("y", .str "new")]⟩)] ∧
    (c.performed heading (.updateRecord missing) (c.after steps ⟨pool, (table, ())⟩)).1 =
      .failed := by
  intro outside c heading update copy pool steps missing table workflow
  have hlaw := records_after_run (fun _ _ _ => pure (.ok (.truth true))) outside
    [⟨"1", "a", "o", [("x", .null)]⟩] workflow pool ()
  constructor
  · exact hlaw.1.trans (by rfl)
  · have hfailed := hlaw.2.2 _ 0 heading missing (c.after steps ⟨pool, (table, ())⟩) []
      (c.visits_append 0 steps [_] ⟨pool, (table, ())⟩)
    refine hfailed.1.mpr fun x hx => ?_
    obtain rfl : (⟨"2", "b", "o", []⟩ : Variable) = x := Option.some.inj hx
    have hout : "2" ∉ ["1"] := by decide
    exact hout

end Collaborators

end Stepwise
