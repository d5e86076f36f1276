import Stepwise.Proofs.Run.BranchElimination
import Stepwise.Proofs.Run.PoolReads

/-!
# Entries that are not read

An entry of the pool that reaches no step makes no difference to a run: the calls, the records and
the result are the same, and at the end the entry is still there among those that the run without
it leaves.
-/

namespace Stepwise

/-- The collection whose records a condition asks the store for, if it asks for any. -/
def Condition.lists? (c : Condition) (pool : Pool) : Option (Option String) :=
  match c.question pool with
  | .ok (.firstRecord object _) => some object
  | _ => none

/-- A call that comes to the store of records or to what lies outside. -/
inductive ReachedCall (β : Type) where
  /-- The records of a collection are listed, or all of them. -/
  | list (object : Option String)
  | made (call : RunCall β)

/-- What a call comes to when conditions are searched for in the store: an evaluation lists the
records if its condition asks for one, and otherwise comes to nothing. -/
def RunCall.reached? {β : Type} : RunCall β → Option (ReachedCall β)
  | evaluate condition pool => (condition.lists? pool).map .list
  | call => some (.made call)

/-- The second moment is the first one with one more entry in the pool. -/
def Moment.Added {σ : Type} (key : String) (entry : PoolEntry) (m n : Moment σ) : Prop :=
  Pool.Added key entry m.pool n.pool ∧ n.state = m.state

namespace Collaborators

section Unaffected

variable {σ β : Type} (c : Collaborators σ β)

/-- Steps run from two moments lead to the same but for one more entry, remember the same outcome
and make calls that come to the same. -/
structure Unaffected (key : String) (entry : PoolEntry) (steps : List Step) (m n : Moment σ) :
    Prop where
  moment : Moment.Added key entry (c.after steps m) (c.after steps n)
  last : (c.ran steps n).1.last = (c.ran steps m).1.last
  calls : (c.calls steps n).filterMap RunCall.reached? =
    (c.calls steps m).filterMap RunCall.reached?

variable {c} {key : String} {entry : PoolEntry} {m n : Moment σ}

theorem Unaffected.append {xs ys : List Step} (hx : Unaffected c key entry xs m n)
    (hy : Unaffected c key entry ys (c.after xs m) (c.after xs n)) :
    Unaffected c key entry (xs ++ ys) m n where
  moment := by
    rw [after_append, after_append]
    exact hy.moment
  last := by
    rw [ran_append, ran_append, Progress.andThen, Progress.andThen, hx.last, hy.last]
  calls := by
    rw [calls_append, calls_append, List.filterMap_append, List.filterMap_append, hx.calls,
      hy.calls]

/-- The result is the same, the final pool of the longer run in the place of the other one. -/
theorem Unaffected.resultOf {steps : List Step} (h : Unaffected c key entry steps m n) :
    c.resultOf steps n = (c.resultOf steps m).carriedTo (c.after steps n).pool := by
  have hnone := Progress.result_andThen (c.ran steps m).1 ⟨(c.after steps n).pool, none⟩
  have hlater : (c.ran steps m).1.andThen ⟨(c.after steps n).pool, none⟩ = (c.ran steps n).1 := by
    rw [Progress.andThen, Option.none_or, ← h.last]
    rfl
  rw [hlater] at hnone
  exact hnone

/-- A branch around the steps ends in the same. -/
theorem Unaffected.branchOutcome {steps : List Step} (h : Unaffected c key entry steps m n) :
    (c.ran steps n).1.branchOutcome = (c.ran steps m).1.branchOutcome := by
  have hresult : (c.ran steps n).1.result =
      (c.ran steps m).1.result.carriedTo (c.after steps n).pool := h.resultOf
  rw [Progress.branchOutcome, Progress.branchOutcome, hresult]
  cases (c.ran steps m).1.result <;> rfl

end Unaffected

section Calls

variable {σ β : Type} (c : Collaborators σ β)

/-- A lookup makes one call, to the evaluation of its condition. -/
theorem calls_findRecord (h : Heading) (condition : Condition) (m : Moment σ) :
    c.calls [.task h (.findRecord condition)] m =
      [.evaluate (condition.within h.object) m.pool] := by
  rw [calls_task, performed, perform, findRecord, run_bind]
  split <;> rfl

end Calls

/-! ## One step -/

variable {ρ ε β : Type} (store : RecordStore ρ) (outside : Outside ε β) {key : String}
  {entry : PoolEntry}

theorem evaluate_searching_added {pool full : Pool} (h : Pool.Added key entry pool full)
    {condition : Condition} (hcondition : key ∉ condition.variableKeys) :
    (searching store outside).evaluate condition full =
      (searching store outside).evaluate condition pool := by
  simp only [searching_eq_withStore, withStore, overStore,
    RecordStore.answer_added h store hcondition]

theorem performed_added {h : Heading} {task : Task}
    (hignores : (Step.task h task).Ignores key entry) {pool full : Pool}
    (hadded : Pool.Added key entry pool full) (state : ρ × ε) :
    (searching store outside).performed h task ⟨full, state⟩ =
      (searching store outside).performed h task ⟨pool, state⟩ := by
  rw [performed, performed]
  by_cases hlookup : ∃ condition, task = .findRecord condition
  · obtain ⟨condition, rfl⟩ := hlookup
    have hkeys : key ∉ (condition.within h.object).variableKeys := by
      rw [condition.variableKeys_within]
      exact hignores.1
    rw [perform, perform, findRecord, findRecord,
      evaluate_searching_added store outside hadded hkeys]
  · rw [perform_added hadded _ _ hignores fun condition htask => hlookup ⟨condition, htask⟩]

theorem RunCall.reached?_evaluate_added {pool full : Pool} (h : Pool.Added key entry pool full)
    {condition : Condition} (hcondition : key ∉ condition.variableKeys) :
    (RunCall.evaluate condition full : RunCall β).reached? =
      (RunCall.evaluate condition pool).reached? := by
  simp only [RunCall.reached?, Condition.lists?, Condition.question_added h hcondition]

theorem unaffected_task {h : Heading} {task : Task}
    (hignores : (Step.task h task).Ignores key entry) {m n : Moment (ρ × ε)}
    (hadded : Moment.Added key entry m n) :
    Unaffected (searching store outside) key entry [.task h task] m n := by
  obtain ⟨pool, state⟩ := m
  obtain ⟨full, state'⟩ := n
  obtain ⟨hpool, rfl⟩ : Pool.Added key entry pool full ∧ state' = state := hadded
  have hperformed := performed_added store outside hignores hpool state'
  refine ⟨⟨?_, ?_⟩, ?_, ?_⟩
  · rw [after, after, ran_task, ran_task, hperformed]
    cases hpolicy : task.kind.policy with
    | setResult => exact hpool
    | writePool =>
        have hstores := (Step.storesEntry_task h task).mpr hpolicy
        -- the stored entry is not the pool, so it is the same in both runs
        have hstored := (searching store outside).performed_stored hstores ⟨pool, state'⟩
        simp only [Progress.settle, Progress.start, (hstored.toEntry full).2,
          (hstored.toEntry pool).2]
        exact hpool.set (hignores.name_ne hstores) _
  · rw [after, after, ran_task, ran_task, hperformed]
  · rw [ran_task, ran_task, hperformed]
    cases task.kind.policy <;> rfl
  · by_cases hlookup : ∃ condition, task = .findRecord condition
    · obtain ⟨condition, rfl⟩ := hlookup
      have hkeys : key ∉ (condition.within h.object).variableKeys := by
        rw [condition.variableKeys_within]
        exact hignores.1
      rw [calls_findRecord, calls_findRecord, List.filterMap_cons, List.filterMap_cons,
        RunCall.reached?_evaluate_added hpool hkeys]
    · rw [calls_task, calls_task, performed, performed,
        perform_added hpool _ _ hignores fun condition htask => hlookup ⟨condition, htask⟩]

/-! ## Many steps -/

mutual

theorem unaffected_step (depth : Nat) : ∀ (step : Step) {m n : Moment (ρ × ε)},
    (∀ x ∈ step.outline depth, x.2.Ignores key entry) → Moment.Added key entry m n →
    Unaffected (searching store outside) key entry [step] m n
  | .task h task, m, n, hignores, hadded => by
      have htask := hignores (depth, .task h task) (by simp [Step.outline])
      exact unaffected_task store outside htask hadded
  | .branch h condition steps, m, n, hignores, hadded => by
      rw [Step.outline, List.forall_mem_cons] at hignores
      obtain ⟨hcondition, hsteps⟩ := hignores
      have hkeys : key ∉ (condition.within h.object).variableKeys := by
        rw [condition.variableKeys_within]
        exact hcondition
      have henters : (searching store outside).enters h condition n =
          (searching store outside).enters h condition m := by
        rw [enters_searching, enters_searching, RecordStore.answer_added hadded.1 store hkeys,
          hadded.2]
      have hinner := unaffected_steps (depth + 1) steps hsteps hadded
      refine ⟨?_, ?_, ?_⟩
      · rw [after_branch, after_branch, henters, asked_searching, asked_searching]
        split
        · exact hinner.moment
        · exact hadded
      · rw [ran_branch, ran_branch, henters, asked_searching, asked_searching]
        split
        · exact congrArg some hinner.branchOutcome
        · rfl
      · rw [calls_branch, calls_branch, henters, asked_searching, asked_searching,
          List.filterMap_cons, List.filterMap_cons,
          RunCall.reached?_evaluate_added hadded.1 hkeys]
        split <;> split <;> simp only [hinner.calls]
  | .unknown h type config, m, n, _, hadded => ⟨hadded, rfl, rfl⟩

theorem unaffected_steps (depth : Nat) : ∀ (steps : List Step) {m n : Moment (ρ × ε)},
    (∀ x ∈ Step.outlineAll depth steps, x.2.Ignores key entry) → Moment.Added key entry m n →
    Unaffected (searching store outside) key entry steps m n
  | [], m, n, _, hadded => ⟨hadded, rfl, rfl⟩
  | step :: rest, m, n, hignores, hadded => by
      rw [Step.outlineAll, List.forall_mem_append] at hignores
      have hstep := unaffected_step depth step hignores.1 hadded
      exact hstep.append (unaffected_steps depth rest hignores.2 hstep.moment)

end

/-- An entry under a new key is added to the pool, and no step of the workflow, at any depth, takes
notice of it: none names a variable by the key or stores its outcome under it, and none fills a form
from a variable with the own name of the one in the entry. Then, with conditions searched for in the
records, the run makes the same calls to the store and to what lies outside as the run without the
entry, and leaves the same records. It ends with the pool of the other run and the entry, and with
the same result, in which the pool is its own. -/
theorem unread_entry_is_inert (workflow : Workflow) {pool full : Pool} (state : ρ × ε)
    (hadded : Pool.Added key entry pool full)
    (hignores : ∀ x ∈ workflow.outline, x.2.Ignores key entry) :
    let c := searching store outside
    let short := (c.run workflow pool).run state
    let long := (c.run workflow full).run state
    (c.calls workflow.steps ⟨full, state⟩).filterMap RunCall.reached? =
      (c.calls workflow.steps ⟨pool, state⟩).filterMap RunCall.reached? ∧
    long.2 = short.2 ∧ Pool.Added key entry short.1.2 long.1.2 ∧
    long.1.1 = short.1.1.carriedTo long.1.2 := by
  intro c short long
  have hsame : Unaffected c key entry workflow.steps ⟨pool, state⟩ ⟨full, state⟩ :=
    unaffected_steps store outside 0 workflow.steps hignores ⟨hadded, rfl⟩
  exact ⟨hsame.calls, hsame.moment.2, hsame.moment.1, hsame.resultOf⟩

/-- A lookup and a form inside a branch, beside an entry that holds a variable of another name. -/
theorem variable_of_other_name_is_inert :
    let outside : Outside Unit Unit :=
      { send := fun _ => pure (.ok ()), request := fun _ => pure (.error (.timeout ""))
        openForm := fun _ => pure (.ok ()), setTextField := fun _ _ => pure (.ok ())
        flatten := pure (.ok ()), save := pure (.ok ()), store := fun _ _ => pure (.ok ())
        stamp := pure "0" }
    let c := searching .memory outside
    let record : Variable := ⟨"1", "form", "o", [("x", .str "v")]⟩
    let entry : PoolEntry := .var ⟨"2", "other", "o", [("x", .str "v")]⟩
    let pool : Pool := [("a", .var record)]
    let condition : Condition :=
      ⟨none, [⟨.recordField "x", "==", .variableField ⟨.named "a", "x"⟩⟩]⟩
    let workflow : Workflow := ⟨"w", none, none,
      [.branch ⟨"if", "if", ""⟩ .always
        [.task ⟨"find", "found", ""⟩ (.findRecord condition),
          .task ⟨"pdf", "pdf", ""⟩ (.createPdf ⟨⟨none, "form"⟩, ⟨"t", none⟩, [("x", true)]⟩)]]⟩
    let state := (RecordTable.ofRecords [record], ())
    let long := (c.run workflow (pool.set "k" entry)).run state
    (c.calls workflow.steps ⟨pool.set "k" entry, state⟩).filterMap RunCall.reached? =
      [.list none, .made (.openForm "t"), .made (.setTextField "x" "v"), .made .flatten,
        .made .save, .made (.store "0_form.pdf" ())] ∧
    long.2 = state ∧ Pool.Added "k" entry [("a", .var record), ("found", .var record)] long.1.2 ∧
    long.1.1 = .pool long.1.2 := by
  intro outside c record entry pool condition workflow state long
  have hignores : ∀ x ∈ workflow.outline, x.2.Ignores "k" entry := by
    have houtline : workflow.outline.map Prod.snd = workflow.steps ++
      [.task ⟨"find", "found", ""⟩ (.findRecord condition),
        .task ⟨"pdf", "pdf", ""⟩ (.createPdf ⟨⟨none, "form"⟩, ⟨"t", none⟩, [("x", true)]⟩)] := rfl
    rw [← List.forall_mem_map, houtline]
    simp [workflow, Step.Ignores, Condition.variableKeys, Operand.variableKeys, condition,
      Condition.always, VariableReference.key, entry]
  obtain ⟨hcalls, hstate, hpool, hresult⟩ := unread_entry_is_inert .memory outside workflow state
    (Pool.added_set (by decide : "k" ∉ pool.keys)) hignores
  exact ⟨hcalls.trans (by rfl), hstate.trans (by rfl), hpool, hresult.trans (by rfl)⟩

end Collaborators

end Stepwise
