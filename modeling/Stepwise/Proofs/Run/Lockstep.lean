import Stepwise.Proofs.Run.Calls
import Stepwise.Proofs.Run.RecordLookup
import Stepwise.Proofs.Run.RecordUpdates
import Stepwise.Proofs.Run.Update
import Stepwise.Proofs.Store.Refinement

/-!
# Runs in lockstep

Two collaborators are in step when, in related states, each call is answered alike and leaves related
states. Writing a record is the exception: it need be answered alike only for a record that fits its
identifier. The records that are found fit, and so do these records with the assignments of the
workflow, so a run never writes another one. Hence the runs have the same result, the same pool and
the same calls. Stores that refine each other give such collaborators, with any evaluation of
conditions that knows the records by their lists.
-/

namespace Stepwise

/-- The copy of a record that an update holds fits. -/
def UpdatePhase.Fits (fit : Variable → Prop) : UpdatePhase → Prop
  | holding record => fit record
  | _ => True

/-- A call that is noted on both sides. -/
theorem lockstep_noting {σ τ κ α : Type} {R : σ → τ → Prop} {x : StateM σ α} {y : StateM τ α}
    (h : (lockstep R).Holds x y) (call : κ) :
    (lockstep fun (s : σ × List κ) (t : τ × List κ) => R s.1 t.1 ∧ s.2 = t.2).Holds
      (noting call x) (noting call y) := by
  rintro ⟨s, log⟩ ⟨t, log'⟩ ⟨hst, hlog⟩
  obtain rfl : log = log' := hlog
  obtain ⟨hanswer, hnext⟩ := h s t hst
  exact ⟨hanswer, hnext, rfl⟩

namespace Collaborators

variable {σ τ β : Type}

/-- In related states two collaborators give the same answers and leave related states, if the
records that are stored fit their identifiers; those that are found do. -/
structure InStep (R : σ → τ → Prop) (Fits : String → Variable → Prop) (c : Collaborators σ β)
    (d : Collaborators τ β) : Prop where
  others : Corresponds (lockstep R) c.readOnly d.readOnly
  updateOne : ∀ id record, Fits id record →
    (lockstep R).Holds (c.updateOne id record) (d.updateOne id record)
  found : ∀ id s t record, R s t → ((c.findOne id).run s).1 = .ok (some record) → Fits id record

namespace InStep

variable {R : σ → τ → Prop} {Fits : String → Variable → Prop} {c : Collaborators σ β}
  {d : Collaborators τ β} (h : InStep R Fits c d)
include h

/-! ## What one step does -/

/-- The next call of an update, which goes on with a record that fits. -/
theorem advance {settings : UpdateRecord} {id : String}
    (hkeeps : ∀ record, Fits id record → Fits id (record.withFields settings.assignments))
    {phase : UpdatePhase} (hphase : phase.Fits (Fits id)) {s : σ} {t : τ} (hst : R s t) :
    ((c.advance settings id phase).run s).1 = ((d.advance settings id phase).run t).1 ∧
      R ((c.advance settings id phase).run s).2 ((d.advance settings id phase).run t).2 ∧
      ((c.advance settings id phase).run s).1.Fits (Fits id) := by
  cases phase with
  | unread =>
      obtain ⟨hanswer, hnext⟩ : ((c.findOne id).run s).1 = ((d.findOne id).run t).1 ∧
        R ((c.findOne id).run s).2 ((d.findOne id).run t).2 := h.others.findOne id s t hst
      simp only [Collaborators.advance, run_bind, ← hanswer]
      cases hfound : ((c.findOne id).run s).1 with
      | error e => exact ⟨rfl, hnext, trivial⟩
      | ok found =>
          cases found with
          | none => exact ⟨rfl, hnext, trivial⟩
          | some record => exact ⟨rfl, hnext, h.found id s t record hst hfound⟩
  | holding record =>
      have hfits : Fits id (record.withFields settings.assignments) := hkeeps record hphase
      obtain ⟨hanswer, hnext⟩ := h.updateOne id _ hfits s t hst
      simp only [Collaborators.advance, run_bind, ← hanswer]
      cases ((c.updateOne id (record.withFields settings.assignments)).run s).1 with
      | error e => exact ⟨rfl, hnext, trivial⟩
      | ok _ => exact ⟨rfl, hnext, trivial⟩
  | ended outcome => exact ⟨rfl, hst, trivial⟩

theorem updateRecord {settings : UpdateRecord}
    (hkeeps : ∀ id record, Fits id record → Fits id (record.withFields settings.assignments))
    (pool : Pool) :
    (lockstep R).Holds (c.updateRecord settings pool) (d.updateRecord settings pool) := by
  intro s t hst
  rw [updateRecord_eq_advance, updateRecord_eq_advance]
  cases pool.variableAt? settings.target.value.name with
  | none => exact ⟨rfl, hst⟩
  | some v =>
      have hunread : UpdatePhase.unread.Fits (Fits v.id) := trivial
      obtain ⟨hread, hst', hfits⟩ := h.advance (hkeeps v.id) hunread hst
      obtain ⟨hwritten, hst'', -⟩ := h.advance (hkeeps v.id) hfits hst'
      simp only [run_bind, run_pure, ← hread]
      exact ⟨congrArg UpdatePhase.outcome hwritten, hst''⟩

/-- Steps that assign values of a class run alike, if these values keep records fitting. -/
theorem runAlike {N : Json → Prop}
    (hkeeps : ∀ assigned : List (String × Json), (∀ a ∈ assigned, N a.2) →
      ∀ id record, Fits id record → Fits id (record.withFields assigned)) :
    RunAlike (lockstep R) (Step.AssignsOnly N) c d where
  evaluate := h.others.evaluate
  perform heading task pool hassigns := by
    by_cases hupdate : ∃ settings, task = .updateRecord settings
    · obtain ⟨settings, rfl⟩ := hupdate
      exact h.updateRecord (hkeeps settings.assignments hassigns) pool
    · have htask : ∀ settings, task ≠ .updateRecord settings := fun settings ht =>
        hupdate ⟨settings, ht⟩
      rw [← perform_readOnly c _ htask, ← perform_readOnly d _ htask]
      exact h.others.perform heading.object task pool

/-- Taking notes of the calls keeps two collaborators in step, with the same notes. -/
theorem logged : InStep (fun s t => R s.1 t.1 ∧ s.2 = t.2) Fits c.logged d.logged where
  others := {
    evaluate := fun condition pool => lockstep_noting (h.others.evaluate condition pool) _
    findOne := fun id => lockstep_noting (h.others.findOne id) _
    updateOne := fun _ _ => (lockstep _).pure _
    send := fun email => lockstep_noting (h.others.send email) _
    request := fun request => lockstep_noting (h.others.request request) _
    openForm := fun path => lockstep_noting (h.others.openForm path) _
    setTextField := fun name text => lockstep_noting (h.others.setTextField name text) _
    flatten := lockstep_noting h.others.flatten _
    save := lockstep_noting h.others.save _
    store := fun name saved => lockstep_noting (h.others.store name saved) _
    stamp := fun s t hst =>
      have hstamp := h.others.stamp s.1 t.1 hst.1
      ⟨hstamp.1, hstamp.2, hst.2⟩ }
  updateOne id record hfits := lockstep_noting (h.updateOne id record hfits) _
  found id s t record hst := h.found id s.1 t.1 record hst.1

/-! ## What a run does -/

/-- The runs have the same result, the same pool and the same calls, and end in related states. -/
theorem run {N : Json → Prop}
    (hkeeps : ∀ assigned : List (String × Json), (∀ a ∈ assigned, N a.2) →
      ∀ id record, Fits id record → Fits id (record.withFields assigned))
    {workflow : Workflow} (hassigns : workflow.AssignsOnly N) (pool : Pool) {s : σ} {t : τ}
    (hst : R s t) :
    ((c.run workflow pool).run s).1 = ((d.run workflow pool).run t).1 ∧
      R ((c.run workflow pool).run s).2 ((d.run workflow pool).run t).2 ∧
      c.calls workflow.steps ⟨pool, s⟩ = d.calls workflow.steps ⟨pool, t⟩ := by
  obtain ⟨hresult, hend⟩ := (h.runAlike hkeeps).run hassigns pool s t hst
  have hcalls := (h.logged.runAlike hkeeps).runSteps 0 workflow.steps (.start pool) hassigns
    (s, []) (t, []) ⟨hst, rfl⟩
  exact ⟨hresult, hend, hcalls.2.2⟩

end InStep

end Collaborators

/-! ## Conditions that are searched for in lists -/

/-- The answer to a condition, given the lists of the records. -/
def Condition.answer (condition : Condition) (pool : Pool)
    (list : Option String → Except StoreError (List Variable)) :
    Except EvaluationError Evaluation :=
  ((condition.evaluate (fun object => (pure (list object) : StateM Unit _)) pool).run ()).1

theorem RecordStore.answer_eq {ρ : Type} (store : RecordStore ρ) (condition : Condition)
    (pool : Pool) (records : ρ) :
    store.answer condition pool records =
      condition.answer pool fun object => store.list object records := by
  rw [RecordStore.answer, Condition.answer, Condition.run_evaluate, Condition.run_evaluate]
  cases condition.question pool with
  | error e => rfl
  | ok question =>
      cases question with
      | settled holds => rfl
      | firstRecord object test => rfl

/-! ## Stores -/

namespace Collaborators

variable {ρ τ ε β : Type}

/-- Collaborators over a store, whose conditions are answered with a view to the lists of its
records. -/
def withListing (store : RecordStore ρ)
    (evaluate : Condition → Pool → (Option String → Except StoreError (List Variable)) →
      StateM ε (Except EvaluationError Evaluation))
    (outside : Outside ε β) : Collaborators (ρ × ε) β :=
  withStore store
    (fun condition pool records => evaluate condition pool fun object => store.list object records)
    outside

/-- Searching a store for the answer to a condition needs the lists of its records alone. -/
theorem searching_eq_withListing (store : RecordStore ρ) (outside : Outside ε β) :
    searching store outside =
      withListing store (fun condition pool list => pure (condition.answer pool list)) outside := by
  simp only [searching_eq_withStore, withListing, RecordStore.answer_eq]

theorem lockstep_onRecords {α : Type} {R : ρ → τ → Prop} {x : StateM ρ α} {y : StateM τ α}
    (h : (lockstep R).Holds x y) :
    (lockstep fun (s : ρ × ε) (t : τ × ε) => R s.1 t.1 ∧ s.2 = t.2).Holds
      (onRecords x) (onRecords y) := by
  rintro ⟨records, e⟩ ⟨list, e'⟩ ⟨hst, he⟩
  obtain rfl : e = e' := he
  obtain ⟨hanswer, hnext⟩ := h records list hst
  exact ⟨hanswer, hnext, rfl⟩

/-- Stores that refine each other give collaborators in step. -/
theorem inStep_withListing {R : ρ → τ → Prop} {Fits : String → Variable → Prop}
    {store : RecordStore ρ} {spec : RecordStore τ} (h : store.Refines R Fits spec)
    (evaluate : Condition → Pool → (Option String → Except StoreError (List Variable)) →
      StateM ε (Except EvaluationError Evaluation))
    (outside : Outside ε β) :
    InStep (fun s t => R s.1 t.1 ∧ s.2 = t.2) Fits (withListing store evaluate outside)
      (withListing spec evaluate outside) where
  others := by
    rw [withListing, withListing, withStore_readOnly, withStore_readOnly]
    refine withStore_corresponds ?_ ?_ ?_ ?_
    · rintro α x ⟨records, e⟩ ⟨list, e'⟩ ⟨hst, he⟩
      obtain rfl : e = e' := he
      exact ⟨rfl, hst, rfl⟩
    · rintro condition pool ⟨records, e⟩ ⟨list, e'⟩ ⟨hst, he⟩
      obtain rfl : e = e' := he
      have hlists : (fun object => store.list object records) = fun object => spec.list object list := by
        funext object
        exact h.list object records list hst
      have hanswer : evaluate condition pool (fun object => store.list object records) =
        evaluate condition pool fun object => spec.list object list := by rw [hlists]
      exact ⟨congrArg (fun x => (x.run e).1) hanswer, hst,
        congrArg (fun x => (x.run e).2) hanswer⟩
    · intro id
      exact lockstep_onRecords (h.findOne id)
    · intro id record
      exact lockstep_onRecords ((lockstep R).pure _)
  updateOne id record hfits := lockstep_onRecords (h.updateOne id record hfits)
  found id s t record hst := h.found id s.1 t.1 record hst.1

end Collaborators

end Stepwise
