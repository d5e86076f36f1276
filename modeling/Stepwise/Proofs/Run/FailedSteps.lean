import Stepwise.Proofs.Ordered
import Stepwise.Proofs.Run.RecordUpdates
import Stepwise.Proofs.Run.Result

/-!
# What a failed step leaves behind

A task may give up at many places, some of them after a record was read and edited or a form was
filled. Wherever it does, the records are as they were, and the run shows the failure in the one
slot that belongs to the task: under its name in the pool, or as the last result. A branch never
fails. The run goes on with the next step in every case.
-/

namespace Stepwise

/-- A store whose lookups change nothing, and neither does an update that fails. -/
structure RecordStore.FailsCleanly {ρ : Type} (store : RecordStore ρ) : Prop where
  findOne : ∀ id records, ((store.findOne id).run records).2 = records
  updateOne : ∀ id record records e, ((store.updateOne id record).run records).1 = .error e →
    ((store.updateOne id record).run records).2 = records

namespace RecordStore

theorem memory_failsCleanly : memory.FailsCleanly where
  findOne _ _ := rfl
  updateOne id record table e hfailed := by
    rw [run_updateOne_memory] at hfailed ⊢
    by_cases hid : table.has id = true
    · rw [if_pos hid] at hfailed
      cases hfailed
    · rw [if_neg hid]

theorem file_failsCleanly (path : String) : (file path).FailsCleanly where
  findOne _ _ := rfl
  updateOne id record files e hfailed := by
    rw [run_updateOne_file] at hfailed ⊢
    cases hupdate : RecordFile.update files path id record with
    | error _ => rfl
    | ok written =>
        rw [hupdate] at hfailed
        cases hfailed

end RecordStore

/-- A failure is stored as a failure, whatever the pool. -/
theorem StepOutcome.toEntry_of_isFailed {outcome : StepOutcome} (h : outcome.isFailed = true)
    (pool : Pool) : outcome.toEntry pool = .failed := by
  cases outcome with
  | failed => rfl
  | pool => cases h
  | succeeded entry =>
      cases entry with
      | failed => rfl
      | var v => cases h
      | value v => cases h

theorem StepOutcome.IsPlain.eq_failed {outcome : StepOutcome} (hplain : outcome.IsPlain)
    (h : outcome.isFailed = true) : outcome = .failed := by
  rcases hplain with ⟨v, rfl⟩ | rfl
  · cases h
  · rfl

namespace Progress

/-- The run with the mark that a failed task leaves: a failure under its name, or as the last
result. -/
def marked (p : Progress) (h : Heading) : Task → Progress
  | .findRecord _ | .sendEmail _ | .updateRecord _ => { p with pool := p.pool.set h.name .failed }
  | .apiCall _ | .createPdf _ => { p with last := some .failed }

theorem find?_marked (p : Progress) (h : Heading) (task : Task) {key : String}
    (hkey : key ≠ h.name) : (p.marked h task).pool.find? key = p.pool.find? key := by
  cases task with
  | findRecord _ | sendEmail _ | updateRecord _ =>
      exact (Ordered.find?_set p.pool h.name key .failed).trans (if_neg hkey.symm)
  | apiCall _ | createPdf _ => rfl

/-- What branches end in is a value with content or the pool, and so never a failure. -/
theorem branchOutcome_isFailed (p : Progress) : p.branchOutcome.isFailed = false := by
  unfold branchOutcome
  split
  · split <;> rfl
  · rfl

end Progress

namespace Collaborators

/-- A task that fails is settled as its mark. -/
theorem runStep_of_isFailed {σ β : Type} (c : Collaborators σ β) (h : Heading) (task : Task)
    (p : Progress) (s : σ)
    (hfailed : ((c.perform h.object task p.pool).run s).1.isFailed = true) :
    (c.runStep (.task h task) p).run s =
      (p.marked h task, ((c.perform h.object task p.pool).run s).2) := by
  have hrun : (c.runStep (.task h task) p).run s =
      (p.settle task.kind.policy h.name ((c.perform h.object task p.pool).run s).1,
        ((c.perform h.object task p.pool).run s).2) := by
    simp only [runStep, run_bind, run_pure]
  have hplain : (Step.task h task).setsResult = true →
      ((c.perform h.object task p.pool).run s).1 = .failed := fun hsets =>
    (c.performed_plain hsets ⟨p.pool, s⟩).eq_failed hfailed
  rw [hrun]
  refine Prod.ext ?_ rfl
  cases task with
  | findRecord _ | sendEmail _ | updateRecord _ =>
      simp only [Task.kind, StepKind.policy, Progress.settle, Progress.marked,
        StepOutcome.toEntry_of_isFailed hfailed]
  | apiCall _ | createPdf _ =>
      simp only [Task.kind, StepKind.policy, Progress.settle, Progress.marked, hplain rfl]

/-- A branch is settled with an outcome that is no failure. -/
theorem exists_last_runStep_branch {σ β : Type} (c : Collaborators σ β) (h : Heading)
    (condition : Condition) (steps : List Step) (p : Progress) (s : σ) :
    ∃ outcome, ((c.runStep (.branch h condition steps) p).run s).1.last = some outcome ∧
      outcome.isFailed = false := by
  simp only [runStep, run_bind]
  split
  · exact ⟨_, rfl, Progress.branchOutcome_isFailed _⟩
  · exact ⟨.pool, rfl, rfl⟩

/-! ## The records -/

section Records

variable {ρ ε β : Type} {store : RecordStore ρ}

theorem readOnly_keeps_of_failsCleanly (hstore : store.FailsCleanly)
    (evaluate : Condition → Pool → ρ → StateM ε (Except EvaluationError Evaluation))
    (outside : Outside ε β) :
    Corresponds (recordKeeping ρ ε) (withStore store evaluate outside).readOnly
      (withStore store evaluate outside).readOnly := by
  rw [withStore_readOnly]
  exact withStore_corresponds (fun _ _ => rfl) (fun _ _ _ => rfl)
    (fun id s => hstore.findOne id s.1) fun _ _ _ => rfl

/-- An update that fails leaves the records as they are: it has written nothing, or its writing is
what failed. -/
theorem updateRecord_keeps_of_isFailed (hstore : store.FailsCleanly)
    (evaluate : Condition → Pool → ρ → StateM ε (Except EvaluationError Evaluation))
    (outside : Outside ε β) (settings : UpdateRecord) (pool : Pool) (s : ρ × ε)
    (hfailed : (((withStore store evaluate outside).updateRecord settings pool).run s).1.isFailed =
      true) :
    (((withStore store evaluate outside).updateRecord settings pool).run s).2.1 = s.1 := by
  have hread (id : String) : ((withStore store evaluate outside).findOne id).run s =
      (((store.findOne id).run s.1).1, s) :=
    Prod.ext rfl (Prod.ext (hstore.findOne id s.1) rfl)
  have hwrite (id : String) (record : Variable) :
      ((withStore store evaluate outside).updateOne id record).run s =
        (((store.updateOne id record).run s.1).1, ((store.updateOne id record).run s.1).2, s.2) :=
    rfl
  revert hfailed
  rw [updateRecord]
  cases pool.variableAt? settings.target.value.name with
  | none => exact fun _ => rfl
  | some v =>
      simp only [run_bind, hread]
      cases ((store.findOne v.id).run s.1).1 with
      | error e => exact fun _ => rfl
      | ok found =>
          cases found with
          | none => exact fun _ => rfl
          | some record =>
              simp only [run_bind, hwrite]
              cases hanswer : ((store.updateOne v.id (settings.applyTo record)).run s.1).1 with
              | error e => exact fun _ => hstore.updateOne v.id _ s.1 e hanswer
              | ok _ =>
                  intro hsucceeded
                  cases hsucceeded

theorem perform_keeps_of_isFailed (hstore : store.FailsCleanly)
    (evaluate : Condition → Pool → ρ → StateM ε (Except EvaluationError Evaluation))
    (outside : Outside ε β) (object : String) (task : Task) (pool : Pool) (s : ρ × ε)
    (hfailed : (((withStore store evaluate outside).perform object task pool).run s).1.isFailed =
      true) :
    (((withStore store evaluate outside).perform object task pool).run s).2.1 = s.1 := by
  by_cases hupdate : ∃ settings, task = .updateRecord settings
  · obtain ⟨settings, rfl⟩ := hupdate
    exact updateRecord_keeps_of_isFailed hstore evaluate outside settings pool s hfailed
  · rw [← perform_readOnly _ _ fun settings ht => hupdate ⟨settings, ht⟩]
    exact (readOnly_keeps_of_failsCleanly hstore evaluate outside).perform object task pool s

end Records

/-- With records in memory, in a file, or in any store whose lookups and failed updates change
nothing, a task that fails leaves the records as they were. It marks the failure under its name in
the pool if it is a lookup, a message or an update, and as the last result if it is a call of an
API or a form; no other slot changes. A branch never ends in a failure. Whatever becomes of a step,
the next one runs on what it left. -/
theorem failed_step_leaves_only_its_mark :
    RecordStore.memory.FailsCleanly ∧ (∀ path, (RecordStore.file path).FailsCleanly) ∧
    ∀ {ρ ε β : Type} {store : RecordStore ρ}, store.FailsCleanly →
      ∀ (evaluate : Condition → Pool → ρ → StateM ε (Except EvaluationError Evaluation))
        (outside : Outside ε β) (p : Progress) (s : ρ × ε),
      let c := withStore store evaluate outside
      (∀ h task, ((c.perform h.object task p.pool).run s).1.isFailed = true →
        ((c.runStep (.task h task) p).run s).2.1 = s.1 ∧
        ((c.runStep (.task h task) p).run s).1 =
          (match task with
          | .findRecord _ | .sendEmail _ | .updateRecord _ =>
              ⟨p.pool.set h.name .failed, p.last⟩
          | .apiCall _ | .createPdf _ => ⟨p.pool, some .failed⟩) ∧
        ∀ key, key ≠ h.name →
          ((c.runStep (.task h task) p).run s).1.pool.find? key = p.pool.find? key) ∧
      (∀ h condition steps, ∃ outcome,
        ((c.runStep (.branch h condition steps) p).run s).1.last = some outcome ∧
          outcome.isFailed = false) ∧
      ∀ step rest, (c.runSteps (step :: rest) p).run s =
        (c.runSteps rest ((c.runStep step p).run s).1).run ((c.runStep step p).run s).2 := by
  refine ⟨RecordStore.memory_failsCleanly, RecordStore.file_failsCleanly, ?_⟩
  intro ρ ε β store hstore evaluate outside p s c
  refine ⟨fun h task hfailed => ?_,
    fun h condition steps => c.exists_last_runStep_branch h condition steps p s, ?_⟩
  · rw [c.runStep_of_isFailed h task p s hfailed]
    refine ⟨perform_keeps_of_isFailed hstore evaluate outside h.object task p.pool s hfailed, ?_,
      fun key hkey => p.find?_marked h task hkey⟩
    cases task <;> rfl
  · intro step rest
    rw [runSteps, run_bind]

/-- A record is found and edited, and the store refuses it: the record stays, the pool shows a
failure behind the variable, and the result of an earlier step is kept. A call without a reply
takes the place of that result, and the pool stays. -/
theorem refused_record_stays :
    let old : Variable := ⟨"1", "a", "o", [("k", .str "x")]⟩
    let refusing := { RecordStore.memory with updateOne := fun _ _ => pure (.error (.io "r.json")) }
    let c := withStore refusing (fun _ _ _ => pure (.error (.unsupportedOperator "?"))) Outside.idle
    let update := Step.task ⟨"change", "change", ""⟩
      (.updateRecord ⟨⟨none, ⟨"a", none⟩⟩, [⟨"k", .str "y"⟩]⟩)
    let call := Step.task ⟨"call", "call", ""⟩ (.apiCall ⟨⟨"http://a", .get, []⟩, []⟩)
    let p : Progress := ⟨[("a", .var old)], some .pool⟩
    ((c.runStep update p).run ([("1", old)], ())).2.1 = [("1", old)] ∧
    ((c.runStep update p).run ([("1", old)], ())).1 =
      ⟨[("a", .var old), ("change", .failed)], some .pool⟩ ∧
    ((c.runStep call p).run ([("1", old)], ())).1 = ⟨[("a", .var old)], some .failed⟩ := by
  intro old refusing c update call p
  have hclean : refusing.FailsCleanly := ⟨fun _ _ => rfl, fun _ _ _ _ _ => rfl⟩
  have hlaw := (failed_step_leaves_only_its_mark.2.2 hclean
    (fun _ _ _ => pure (.error (.unsupportedOperator "?"))) Outside.idle p ([("1", old)], ())).1
  obtain ⟨hrecords, hmark, -⟩ := hlaw ⟨"change", "change", ""⟩
    (.updateRecord ⟨⟨none, ⟨"a", none⟩⟩, [⟨"k", .str "y"⟩]⟩) rfl
  obtain ⟨-, hlast, -⟩ := hlaw ⟨"call", "call", ""⟩ (.apiCall ⟨⟨"http://a", .get, []⟩, []⟩) rfl
  exact ⟨hrecords, hmark, hlast⟩

end Collaborators

end Stepwise
