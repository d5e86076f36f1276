import Stepwise.Proofs.Run.PoolWrites
import Stepwise.Proofs.Run.RecordLookup
import Stepwise.Proofs.Run.RecordUpdates
import Stepwise.Proofs.Run.Update
import Stepwise.Proofs.Store.RecordFile
import Stepwise.Proofs.Written.Pool

/-!
# Pools of a run survive being written

A value in a pool is written as it stands, and read again it is sorted by its shape; a plain `false`
or a plain object like a record would come back as something else. The pools of a run hold no such
value: an input that was decoded makes none, and a step stores only a record, `true` or a failure.
So stability is an invariant of the steps, beside a second one: the records that collaborators give
have distinct names. It is kept because an update writes back what it read, with values of the
workflow.
-/

namespace Stepwise

open Json (IsNormal Stable)

namespace Collaborators

variable {σ β : Type}

/-- In the states of a class, which no call leaves, the records that are found or matched have
distinct names. The store takes any record with distinct names. -/
structure KeepsNames (c : Collaborators σ β) (Safe : σ → Prop) : Prop where
  others : Corresponds (keeping Safe) c.readOnly c.readOnly
  updateOne : ∀ id record, record.toJson.IsNormal →
    ∀ s, Safe s → Safe ((c.updateOne id record).run s).2
  found : ∀ id s record, Safe s →
    ((c.findOne id).run s).1 = .ok (some record) → record.toJson.IsNormal
  matched : ∀ condition pool s record, Safe s →
    ((c.evaluate condition pool).run s).1 = .ok (.record record) → record.toJson.IsNormal

end Collaborators

/-! ## The outcome of one step -/

/-- The entry that the outcome leaves in an empty pool is stable. -/
def StepOutcome.LeavesStable (outcome : StepOutcome) : Prop :=
  Stable PoolEntry.decode PoolEntry.toJson (outcome.toEntry [])

theorem StepOutcome.leavesStable_failed : failed.LeavesStable := PoolEntry.stable_failed

theorem StepOutcome.leavesStable_true : (ofValue (.bool true)).LeavesStable :=
  PoolEntry.stable_true

theorem StepOutcome.leavesStable_var {v : Variable} (h : v.toJson.IsNormal) :
    (succeeded (.var v)).LeavesStable :=
  PoolEntry.stable_var h

/-- A record that the update holds has distinct names, and what it ends in leaves a stable entry. -/
def UpdatePhase.HasNames : UpdatePhase → Prop
  | unread => True
  | holding record => record.toJson.IsNormal
  | ended outcome => outcome.LeavesStable

theorem UpdatePhase.HasNames.outcome {phase : UpdatePhase} (h : phase.HasNames) :
    phase.outcome.LeavesStable := by
  cases phase with
  | unread => exact StepOutcome.leavesStable_failed
  | holding record => exact StepOutcome.leavesStable_failed
  | ended outcome => exact h

namespace Collaborators

variable {σ β : Type} {c : Collaborators σ β}

theorem sendEmail_leavesStable (settings : SendEmail) (pool : Pool) :
    Gives StepOutcome.LeavesStable (c.sendEmail settings pool) := by
  unfold sendEmail
  cases settings.email.outgoing? pool with
  | none => exact gives_pure StepOutcome.leavesStable_failed
  | some email =>
      refine gives_bind _ fun sent => ?_
      cases sent with
      | error e => exact gives_pure StepOutcome.leavesStable_failed
      | ok _ => exact gives_pure StepOutcome.leavesStable_true

namespace KeepsNames

variable {Safe : σ → Prop} (hc : c.KeepsNames Safe)
include hc

/-- Each call of an update keeps the class, and the update goes on with distinct names. -/
theorem advance {settings : UpdateRecord} (hvalues : ∀ a ∈ settings.assignments, a.2.IsNormal)
    (id : String) {phase : UpdatePhase} (hphase : phase.HasNames) {s : σ} (hs : Safe s) :
    ((c.advance settings id phase).run s).1.HasNames ∧
      Safe ((c.advance settings id phase).run s).2 := by
  cases phase with
  | unread =>
      have hsafe : Safe ((c.findOne id).run s).2 := hc.others.findOne id s hs
      simp only [Collaborators.advance, run_bind]
      cases hfound : ((c.findOne id).run s).1 with
      | error e => exact ⟨StepOutcome.leavesStable_failed, hsafe⟩
      | ok found =>
          cases found with
          | none => exact ⟨StepOutcome.leavesStable_failed, hsafe⟩
          | some record => exact ⟨hc.found id s record hs hfound, hsafe⟩
  | holding record =>
      have hnormal : (record.withFields settings.assignments).toJson.IsNormal :=
        Variable.isNormal_withFields hphase hvalues
      have hsafe := hc.updateOne id _ hnormal s hs
      simp only [Collaborators.advance, run_bind]
      cases ((c.updateOne id (record.withFields settings.assignments)).run s).1 with
      | error e => exact ⟨StepOutcome.leavesStable_failed, hsafe⟩
      | ok _ => exact ⟨StepOutcome.leavesStable_var hnormal, hsafe⟩
  | ended outcome => exact ⟨hphase, hs⟩

theorem updateRecord {settings : UpdateRecord}
    (hvalues : ∀ a ∈ settings.assignments, a.2.IsNormal) (pool : Pool) {s : σ} (hs : Safe s) :
    ((c.updateRecord settings pool).run s).1.LeavesStable ∧
      Safe ((c.updateRecord settings pool).run s).2 := by
  rw [updateRecord_eq_advance]
  cases pool.variableAt? settings.target.value.name with
  | none => exact ⟨StepOutcome.leavesStable_failed, hs⟩
  | some v =>
      have hunread : UpdatePhase.unread.HasNames := trivial
      obtain ⟨hread, hs'⟩ := hc.advance hvalues v.id hunread hs
      obtain ⟨hwritten, hs''⟩ := hc.advance hvalues v.id hread hs'
      exact ⟨hwritten.outcome, hs''⟩

theorem findRecord (condition : Condition) (pool : Pool) {s : σ} (hs : Safe s) :
    ((c.findRecord condition pool).run s).1.LeavesStable := by
  rw [Collaborators.findRecord, run_bind]
  cases hanswer : ((c.evaluate condition pool).run s).1 with
  | error e => exact StepOutcome.leavesStable_failed
  | ok evaluation =>
      cases evaluation with
      | record v => exact StepOutcome.leavesStable_var (hc.matched condition pool s v hs hanswer)
      | truth holds =>
          cases holds with
          | true => exact StepOutcome.leavesStable_true
          | false => exact StepOutcome.leavesStable_failed

/-! ## What one step preserves -/

theorem performed_state {h : Heading} {task : Task}
    (hassigns : (Step.task h task).AssignsOnly IsNormal) {m : Moment σ} (hs : Safe m.state) :
    Safe (c.performed h task m).2 := by
  by_cases hupdate : ∃ settings, task = .updateRecord settings
  · obtain ⟨settings, rfl⟩ := hupdate
    exact (hc.updateRecord hassigns m.pool hs).2
  · have htask : ∀ settings, task ≠ .updateRecord settings := fun settings ht =>
      hupdate ⟨settings, ht⟩
    rw [performed, ← perform_readOnly _ _ htask]
    exact hc.others.perform h.object task m.pool m.state hs

theorem performed_outcome {h : Heading} {task : Task}
    (hassigns : (Step.task h task).AssignsOnly IsNormal)
    (hstores : (Step.task h task).storesEntry = true) {m : Moment σ} (hs : Safe m.state) :
    (c.performed h task m).1.LeavesStable := by
  cases task with
  | findRecord condition => exact hc.findRecord (condition.within h.object) m.pool hs
  | sendEmail settings => exact sendEmail_leavesStable settings m.pool m.state
  | updateRecord settings => exact (hc.updateRecord hassigns m.pool hs).1
  | apiCall call => cases hstores
  | createPdf settings => cases hstores

/-- What a visited step stores in the pool is stable. -/
theorem stable_of_write? {depth : Nat} {step : Step} (hassigns : step.AssignsOnly IsNormal)
    {m : Moment σ} (hs : Safe m.state) {write : String × PoolEntry}
    (hwrite : c.write? ⟨depth, step, m⟩ = some write) :
    Stable PoolEntry.decode PoolEntry.toJson write.2 := by
  cases step with
  | task h task =>
      by_cases hstores : (Step.task h task).storesEntry = true
      · rw [write?_task, if_pos hstores] at hwrite
        obtain rfl := Option.some.inj hwrite
        have hempty := ((c.performed_stored hstores m).toEntry m.pool).2
        have houtcome := hc.performed_outcome hassigns hstores hs
        change Stable _ _ ((c.performed h task m).1.toEntry m.pool)
        rw [hempty]
        exact houtcome
      · rw [write?_task, if_neg hstores] at hwrite
        cases hwrite
  | branch h condition steps => cases hwrite
  | unknown h type config => cases hwrite

theorem own_pool_stable {step : Step} (hassigns : step.AssignsOnly IsNormal) {m : Moment σ}
    (hs : Safe m.state) (hpool : m.pool.IsStable) : (c.own step m).pool.IsStable := by
  rw [c.own_pool 0]
  apply hpool.setAll
  intro write hwrite
  exact hc.stable_of_write? hassigns hs (Option.mem_toList.mp hwrite)

theorem own_state {step : Step} (hassigns : step.AssignsOnly IsNormal) {m : Moment σ}
    (hs : Safe m.state) : Safe (c.own step m).state := by
  cases step with
  | task h task => exact hc.performed_state hassigns hs
  | branch h condition steps => exact hc.others.evaluate _ m.pool m.state hs
  | unknown h type config => exact hs

/-! ## What a run preserves -/

/-- Along a trail the state stays in the class and the pool stays stable. -/
theorem trail {m n : Moment σ} {vs : List (Visit σ)} (htrail : Trail c m vs n)
    (hassigns : ∀ v ∈ vs, v.step.AssignsOnly IsNormal) (hs : Safe m.state)
    (hpool : m.pool.IsStable) : Safe n.state ∧ n.pool.IsStable := by
  induction htrail with
  | nil m => exact ⟨hs, hpool⟩
  | @cons depth step m n rest tail ih =>
      obtain ⟨hstep, hrest⟩ := List.forall_mem_cons.mp hassigns
      have hstate := hc.own_state hstep hs
      have hnext := hc.own_pool_stable hstep hs hpool
      exact ih hrest hstate hnext

end KeepsNames

end Collaborators

/-! ## Stores -/

namespace RecordStore

variable {ρ : Type}

/-- In the states of a class, which no call leaves, the records that a store finds or lists have
distinct names. It takes any record with distinct names. -/
structure KeepsNames (store : RecordStore ρ) (Safe : ρ → Prop) : Prop where
  findOne : ∀ id records, Safe records → Safe ((store.findOne id).run records).2
  updateOne : ∀ id record, record.toJson.IsNormal →
    ∀ records, Safe records → Safe ((store.updateOne id record).run records).2
  found : ∀ id records record, Safe records →
    ((store.findOne id).run records).1 = .ok (some record) → record.toJson.IsNormal
  listed : ∀ object records candidates, Safe records →
    store.list object records = .ok candidates → ∀ r ∈ candidates, r.toJson.IsNormal

/-- A record that answers a condition is one of those that the store lists. -/
theorem listed_of_answer {store : RecordStore ρ} {condition : Condition} {pool : Pool}
    {records : ρ} {r : Variable} (h : store.answer condition pool records = .ok (.record r)) :
    ∃ object candidates, store.list object records = .ok candidates ∧ r ∈ candidates := by
  obtain ⟨object, test, candidates, -, hlist, hfind⟩ := found_of_answer h
  exact ⟨object, candidates, hlist, List.mem_of_find?_eq_some hfind⟩

theorem mem_of_mem_inCollection {object : Option String} {records : List Variable} {r : Variable}
    (h : r ∈ RecordTable.list.inCollection object records) : r ∈ records := by
  cases object with
  | none => exact h
  | some object => exact (List.mem_filter.mp h).1

/-- In memory the stored records stay those that were given, with updates. -/
theorem memory_keepsNames :
    memory.KeepsNames fun table => ∀ slot ∈ table, slot.2.toJson.IsNormal where
  findOne _ _ h := h
  updateOne id record hrecord table h := by
    rw [run_updateOne_memory]
    split
    · intro slot hslot
      rcases Ordered.mem_of_mem_set hslot with rfl | hold
      · exact hrecord
      · exact h slot hold
    · exact h
  found id table record h hfound := by
    have hfind : table.find? id = some record := Except.ok.inj hfound
    exact h _ (Ordered.mem_of_find? hfind)
  listed object table candidates h hlist r hr := by
    obtain rfl := Except.ok.inj hlist
    obtain ⟨slot, hslot, rfl⟩ := List.mem_map.mp (mem_of_mem_inCollection hr)
    exact h slot hslot

theorem file_keepsNames (path : String) : (file path).KeepsNames fun _ => True where
  findOne _ _ _ := trivial
  updateOne _ _ _ _ _ := trivial
  found id files record _ hfound := by
    have hfind : (RecordFile.read files path).map (fun records => RecordFile.findOne records id) =
      .ok (some record) := hfound
    cases hread : RecordFile.read files path with
    | error e => simp [hread, Except.map] at hfind
    | ok records =>
        have hmem : records.find? (fun r => r.id == id) = some record := by
          simpa [hread, Except.map, RecordFile.findOne] using hfind
        exact RecordFile.isNormal_of_read hread record (List.mem_of_find?_eq_some hmem)
  listed object files candidates _ hlist r hr := by
    have hmap : (RecordFile.read files path).map (RecordTable.list.inCollection object) =
      .ok candidates := hlist
    cases hread : RecordFile.read files path with
    | error e => simp [hread, Except.map] at hmap
    | ok records =>
        obtain rfl : RecordTable.list.inCollection object records = candidates := by
          simpa [hread, Except.map] using hmap
        exact RecordFile.isNormal_of_read hread r (mem_of_mem_inCollection hr)

/-- Collaborators that search such a store keep distinct names, whatever lies outside. -/
theorem KeepsNames.searching {store : RecordStore ρ} {Safe : ρ → Prop}
    (h : store.KeepsNames Safe) {ε β : Type} (outside : Outside ε β) :
    (Collaborators.searching store outside).KeepsNames fun s => Safe s.1 where
  others := by
    rw [Collaborators.searching_eq_withStore, Collaborators.withStore_readOnly]
    refine Collaborators.withStore_corresponds ?_ ?_ ?_ ?_
    · intro α x s hs
      exact hs
    · intro condition pool s hs
      exact hs
    · intro id s hs
      exact h.findOne id s.1 hs
    · intro id record s hs
      exact hs
  updateOne id record hrecord s hs := h.updateOne id record hrecord s.1 hs
  found id s record hs hfound := h.found id s.1 record hs hfound
  matched condition pool s record hs hmatched := by
    rw [Collaborators.searching_evaluate] at hmatched
    have hanswer : store.answer condition pool s.1 = .ok (.record record) := hmatched
    obtain ⟨object, candidates, hlist, hmem⟩ := listed_of_answer hanswer
    exact h.listed object s.1 candidates hs hlist record hmem

end RecordStore

/-! ## Every pool of a run -/

namespace Collaborators

variable {σ β : Type} (c : Collaborators σ β)

/-- A run from an input that was decoded, of a workflow that assigns values with distinct names,
shows only stable pools: the pool at its end and the pool at each step that it comes to are read
again from their written forms, with the same keys in the same order and with each entry of the same
kind and value. Every record with distinct names is read again from its written form. -/
theorem pools_stable {v : Json} {input : PoolInput} (hinput : PoolInput.decode v = .ok input)
    {workflow : Workflow} (hassigns : workflow.AssignsOnly IsNormal) {Safe : σ → Prop}
    (hc : c.KeepsNames Safe) {s : σ} (hs : Safe s) :
    let final := ((c.run workflow input.pool).run s).1.2
    (PoolInput.decode final.toJson).map PoolInput.pool = .ok final ∧
    (∀ slot ∈ final, PoolEntry.decode slot.2.toJson = .ok slot.2) ∧
    (∀ visit ∈ c.visits 0 workflow.steps ⟨input.pool, s⟩,
      (PoolInput.decode visit.moment.pool.toJson).map PoolInput.pool = .ok visit.moment.pool) ∧
    ∀ r : Variable, r.data.keys.Nodup → (∀ m ∈ r.data, m.2.IsNormal) →
      Variable.decode r.toJson = .ok r := by
  intro final
  have hstart : input.pool.IsStable := PoolInput.isStable_pool hinput
  have htrail := c.visits_trail 0 workflow.steps ⟨input.pool, s⟩
  have hsteps : ∀ visit ∈ c.visits 0 workflow.steps ⟨input.pool, s⟩,
      visit.step.AssignsOnly IsNormal := by
    intro visit hvisit
    exact hassigns _ (c.mem_outlineAll_of_mem_visits 0 workflow.steps _ visit hvisit)
  have hread : ∀ pool : Pool, pool.IsStable →
      (PoolInput.decode pool.toJson).map PoolInput.pool = .ok pool := by
    intro pool hpool
    rw [hpool.decode_toJson]
    rfl
  have hfinal : final.IsStable := (hc.trail htrail hsteps hs hstart).2
  refine ⟨hread final hfinal, ?_, ?_, ?_⟩
  · intro slot hslot
    exact (hfinal.entries slot hslot).decodes
  · intro visit hvisit
    obtain ⟨before, rest, hsplit⟩ := List.append_of_mem hvisit
    rw [hsplit] at htrail
    have hbefore : ∀ earlier ∈ before, earlier.step.AssignsOnly IsNormal := by
      intro earlier hearlier
      apply hsteps
      rw [hsplit]
      exact List.mem_append_left _ hearlier
    exact hread _ (hc.trail htrail.upTo hbefore hs hstart).2
  · intro r hnames hvalues
    exact (Variable.stable (Variable.isNormal_toJson hnames hvalues)).decodes

/-- A failure, an object that is no record although it has a name, and a record with an `$oid`, in a
run that stores a record with an object in its data, `true`, and another failure. -/
theorem odd_entries_stay_what_they_are :
    let c := searching .memory .idle
    let document : Json := .obj [("off", .bool false), ("note", .obj [("name", .num (.int 5))]),
      ("p", .obj [("_id", .obj [("$oid", .str "1")]), ("name", .str "a"), ("name", .str "b")]),
      ("q", .obj [("_id", .null), ("data", .obj [("x", .bool false)])])]
    let heading := fun name => (⟨name, name, ""⟩ : Heading)
    let update : UpdateRecord := ⟨⟨none, ⟨"q", none⟩⟩, [⟨"x", .obj [("name", .null)]⟩]⟩
    let workflow : Workflow := ⟨"w", none, none, [.task (heading "r") (.updateRecord update),
      .branch (heading "if") .always [.task (heading "s") (.findRecord .always),
        .task (heading "t") (.updateRecord ⟨⟨none, ⟨"s", none⟩⟩, []⟩)]]⟩
    let stored : Variable := ⟨"", "c", "o", [("y", .null)]⟩
    let final : Pool := [("off", .failed), ("note", .value (.obj [("name", .num (.int 5))])),
      ("p", .var ⟨"1", "b", "", []⟩), ("q", .var ⟨"", "", "", [("x", .bool false)]⟩),
      ("r", .var ⟨"", "c", "o", [("y", .null), ("x", .obj [("name", .null)])]⟩),
      ("s", .value (.bool true)), ("t", .failed)]
    ∃ input, PoolInput.decode document = .ok input ∧
      ((c.run workflow input.pool).run ([("", stored)], ())).1.2 = final ∧
      (PoolInput.decode final.toJson).map PoolInput.pool = .ok final := by
  intro c document heading update workflow stored final
  refine ⟨_, rfl, rfl, ?_⟩
  have hassigns : workflow.AssignsOnly IsNormal := by
    simp [workflow, heading, update, Workflow.AssignsOnly, Workflow.outline, Step.outlineAll,
      Step.outline, Step.AssignsOnly, UpdateRecord.assignments, Ordered.keys]
  have hstored : ∀ slot ∈ [("", stored)], slot.2.toJson.IsNormal := by
    simp [stored, Variable.toJson, Ordered.keys]
  have hnames := RecordStore.memory_keepsNames.searching .idle
  have hstable := @pools_stable _ _ c document _ rfl workflow hassigns _ hnames
    ([("", stored)], ()) hstored
  exact hstable.1

end Collaborators

end Stepwise
