import Stepwise.Proofs.Condition
import Stepwise.Proofs.Run.Surroundings

/-!
# Looking records up

The answer that a condition gets from the records in memory. A condition that names a field of the
matched record finds the first record of its collection that satisfies it, in the order of the
records, and nothing when there is none. Any other condition is answered from the pool alone, and
one with an unknown operator is an error; neither looks at a record.
-/

namespace Stepwise

/-- Whether a record belongs to a collection, if one is given. -/
def Variable.InScope (scope : Option String) (r : Variable) : Prop :=
  ∀ object, scope = some object → r.object = object

/-- Whether a record is the first one in scope that satisfies a condition. -/
def Condition.IsFirstMatch (c : Condition) (pool : Pool) (scope : Option String)
    (records : List Variable) (r : Variable) : Prop :=
  ∃ before after, records = before ++ r :: after ∧ r.InScope scope ∧
    c.Satisfied pool (some r) ∧ ∀ x ∈ before, x.InScope scope → ¬c.Satisfied pool (some x)

namespace Condition

theorem statements_within (c : Condition) (object : String) :
    (c.within object).statements = c.statements := by
  rw [within]
  split <;> rfl

/-- The collection of a condition comes first, and then the one that it is put into. -/
theorem object_within (c : Condition) (object : String) :
    (c.within object).object =
      c.object.or (if object = "" then none else some object) := by
  obtain ⟨own, statements⟩ := c
  cases own with
  | some name => rfl
  | none =>
      by_cases hempty : object = ""
      · subst hempty
        rfl
      · simp [within, hempty]

/-- How a condition is evaluated with any store: only a question for a record lists the records. -/
theorem run_evaluate {σ : Type}
    (list : Option String → StateM σ (Except StoreError (List Variable))) (c : Condition)
    (pool : Pool) (s : σ) :
    (c.evaluate list pool).run s =
      match c.question pool with
      | .error e => (.error e, s)
      | .ok (.settled holds) => (.ok (.truth holds), s)
      | .ok (.firstRecord object test) =>
          (match ((list object).run s).1 with
            | .error e => .error (.store e)
            | .ok candidates => .ok (Evaluation.ofCandidates test candidates),
            ((list object).run s).2) := by
  unfold evaluate
  cases c.question pool with
  | error e => rfl
  | ok question =>
      cases question with
      | settled holds => rfl
      | firstRecord object test =>
          simp only [run_bind]
          cases ((list object).run s).1 <;> rfl

end Condition

/-! ## The search -/

theorem RecordTable.list.find?_inCollection (scope : Option String) (records : List Variable)
    (test : Variable → Bool) :
    (inCollection scope records).find? test =
      records.find? fun r => scope.all (fun object => r.object == object) && test r := by
  cases scope with
  | none => simp [inCollection]
  | some object =>
      simp only [inCollection, List.find?_filter, Option.all_some, Bool.decide_and,
        Bool.decide_eq_true]

theorem Variable.inScope_iff (scope : Option String) (r : Variable) :
    (scope.all fun object => r.object == object) = true ↔ r.InScope scope := by
  cases scope <;> simp [InScope]

section Candidates

variable {c : Condition} {pool : Pool} {test : Variable → Bool}
  (htest : ∀ r, test r = true ↔ c.Satisfied pool (some r))
include htest

/-- A search that tests for a condition gives its first match. -/
theorem Evaluation.ofCandidates_eq_record_iff (scope : Option String) (records : List Variable)
    (r : Variable) :
    ofCandidates test (RecordTable.list.inCollection scope records) = .record r ↔
      c.IsFirstMatch pool scope records r := by
  have hfound : ofCandidates test (RecordTable.list.inCollection scope records) = .record r ↔
      (RecordTable.list.inCollection scope records).find? test = some r := by
    rw [ofCandidates]
    cases (RecordTable.list.inCollection scope records).find? test <;> simp
  rw [hfound, RecordTable.list.find?_inCollection, List.find?_eq_some_iff_append]
  simp only [Bool.and_eq_true, Variable.inScope_iff, htest, Bool.not_eq_true',
    ← Bool.not_eq_true, not_and]
  constructor
  · rintro ⟨⟨hscope, hsat⟩, before, after, hsplit, hbefore⟩
    exact ⟨before, after, hsplit, hscope, hsat, hbefore⟩
  · rintro ⟨before, after, hsplit, hscope, hsat, hbefore⟩
    exact ⟨⟨hscope, hsat⟩, before, after, hsplit, hbefore⟩

/-- It gives nothing when no record in scope satisfies the condition. -/
theorem Evaluation.ofCandidates_eq_truth_iff (scope : Option String) (records : List Variable)
    (b : Bool) :
    ofCandidates test (RecordTable.list.inCollection scope records) = .truth b ↔
      b = false ∧ ∀ r ∈ records, r.InScope scope → ¬c.Satisfied pool (some r) := by
  have hfound : ofCandidates test (RecordTable.list.inCollection scope records) = .truth b ↔
      b = false ∧ (RecordTable.list.inCollection scope records).find? test = none := by
    rw [ofCandidates]
    cases (RecordTable.list.inCollection scope records).find? test <;> simp [eq_comm]
  rw [hfound, RecordTable.list.find?_inCollection, List.find?_eq_none]
  simp only [Bool.and_eq_true, Variable.inScope_iff, htest, not_and]

end Candidates

/-! ## The answer from a store -/

namespace RecordStore

/-- A record is an answer only as the first one listed that passes the test of the condition. -/
theorem found_of_answer {ρ : Type} {store : RecordStore ρ} {c : Condition} {pool : Pool}
    {records : ρ} {r : Variable} (h : store.answer c pool records = .ok (.record r)) :
    ∃ object test candidates, c.question pool = .ok (.firstRecord object test) ∧
      store.list object records = .ok candidates ∧ candidates.find? test = some r := by
  rw [answer, Condition.run_evaluate] at h
  split at h
  · cases h
  · cases h
  · next object test hquestion =>
    have hlist : (store.listing object).run records = (store.list object records, records) := rfl
    rw [hlist] at h
    cases hcandidates : store.list object records with
    | error e => simp [hcandidates] at h
    | ok candidates =>
        refine ⟨object, test, candidates, hquestion, hcandidates, ?_⟩
        simp only [hcandidates, Except.ok.injEq, Evaluation.ofCandidates] at h
        cases hfind : candidates.find? test with
        | none => simp [hfind] at h
        | some v => simpa [hfind] using h

/-- Such a record satisfies the condition. -/
theorem satisfied_of_answer {ρ : Type} {store : RecordStore ρ} {c : Condition} {pool : Pool}
    {records : ρ} {r : Variable} (h : store.answer c pool records = .ok (.record r)) :
    c.Satisfied pool (some r) := by
  obtain ⟨object, test, candidates, hquestion, -, hfind⟩ := found_of_answer h
  have hknown : c.IsWellSpelled := by
    refine Classical.byContradiction fun hunknown => ?_
    obtain ⟨e, he⟩ := (c.exists_question_eq_error_iff pool).mpr hunknown
    rw [hquestion] at he
    cases he
  by_cases hnames : c.NamesRecordField
  · obtain ⟨test', hquestion', htest⟩ := (Condition.question_of_wellSpelled hknown pool).1 hnames
    rw [hquestion'] at hquestion
    cases hquestion
    exact (htest r).mp (List.find?_some hfind)
  · obtain ⟨holds, hquestion', -⟩ := (Condition.question_of_wellSpelled hknown pool).2 hnames
    rw [hquestion'] at hquestion
    cases hquestion

/-! ## The answer from records in memory -/

variable (c : Condition) (pool : Pool) (table : RecordTable)

theorem answer_memory :
    memory.answer c pool table =
      match c.question pool with
      | .error e => .error e
      | .ok (.settled holds) => .ok (.truth holds)
      | .ok (.firstRecord object test) =>
          .ok (Evaluation.ofCandidates test
            (RecordTable.list.inCollection object table.values)) := by
  rw [answer, Condition.run_evaluate]
  split <;> rfl

theorem answer_memory_eq_error_iff (e : EvaluationError) :
    memory.answer c pool table = .error e ↔
      ∃ before s after, c.statements = before ++ s :: after ∧
        (∀ t ∈ before, Operator.IsKnown t.operator) ∧ ¬Operator.IsKnown s.operator ∧
        e = .unsupportedOperator (Text.trim s.operator) := by
  rw [← c.question_eq_error_iff pool, answer_memory]
  split <;> simp_all

theorem exists_answer_memory_eq_error_iff :
    (∃ e, memory.answer c pool table = .error e) ↔ ¬c.IsWellSpelled := by
  rw [← c.exists_question_eq_error_iff pool, answer_memory]
  split <;> simp_all

/-- Without a question for a record the answer is the same for every store, which stays as it is. -/
theorem run_evaluate_eq_answer {σ : Type}
    (list : Option String → StateM σ (Except StoreError (List Variable))) (s : σ)
    (h : ¬c.IsWellSpelled ∨ ¬c.NamesRecordField) :
    (c.evaluate list pool).run s = (memory.answer c pool table, s) := by
  rw [Condition.run_evaluate, answer_memory]
  by_cases hknown : c.IsWellSpelled
  · have hnames : ¬c.NamesRecordField := h.resolve_left (not_not_intro hknown)
    obtain ⟨holds, hquestion, -⟩ := (Condition.question_of_wellSpelled hknown pool).2 hnames
    rw [hquestion]
  · obtain ⟨e, hquestion⟩ := (c.exists_question_eq_error_iff pool).mpr hknown
    rw [hquestion]

variable {c}

theorem answer_memory_of_settled (h : c.IsWellSpelled) (hnames : ¬c.NamesRecordField) :
    ∃ b, memory.answer c pool table = .ok (.truth b) ∧ (b = true ↔ c.Satisfied pool none) := by
  obtain ⟨holds, hquestion, hholds⟩ := (Condition.question_of_wellSpelled h pool).2 hnames
  exact ⟨holds, by rw [answer_memory, hquestion], hholds⟩

theorem answer_memory_of_search (h : c.IsWellSpelled) (hnames : c.NamesRecordField) :
    (∀ r, memory.answer c pool table = .ok (.record r) ↔
      c.IsFirstMatch pool c.object table.values r) ∧
    ∀ b, memory.answer c pool table = .ok (.truth b) ↔
      b = false ∧ ∀ r ∈ table.values, r.InScope c.object → ¬c.Satisfied pool (some r) := by
  obtain ⟨test, hquestion, htest⟩ := (Condition.question_of_wellSpelled h pool).1 hnames
  rw [answer_memory, hquestion]
  constructor
  · intro r
    rw [← Evaluation.ofCandidates_eq_record_iff htest]
    exact ⟨Except.ok.inj, congrArg Except.ok⟩
  · intro b
    rw [← Evaluation.ofCandidates_eq_truth_iff htest]
    exact ⟨Except.ok.inj, congrArg Except.ok⟩

variable (c)

theorem answer_memory_eq_record_iff (r : Variable) :
    memory.answer c pool table = .ok (.record r) ↔
      c.IsWellSpelled ∧ c.NamesRecordField ∧ c.IsFirstMatch pool c.object table.values r := by
  by_cases hknown : c.IsWellSpelled
  · by_cases hnames : c.NamesRecordField
    · simp [(answer_memory_of_search pool table hknown hnames).1, hknown, hnames]
    · obtain ⟨b, hb, -⟩ := answer_memory_of_settled pool table hknown hnames
      simp [hb, hnames]
  · obtain ⟨e, he⟩ := (exists_answer_memory_eq_error_iff c pool table).mpr hknown
    simp [he, hknown]

theorem answer_memory_eq_true_iff :
    memory.answer c pool table = .ok (.truth true) ↔
      c.IsWellSpelled ∧ ¬c.NamesRecordField ∧ c.Satisfied pool none := by
  by_cases hknown : c.IsWellSpelled
  · by_cases hnames : c.NamesRecordField
    · simp [(answer_memory_of_search pool table hknown hnames).2, hnames]
    · obtain ⟨b, hb, hholds⟩ := answer_memory_of_settled pool table hknown hnames
      simp [hb, hknown, hnames, hholds]
  · obtain ⟨e, he⟩ := (exists_answer_memory_eq_error_iff c pool table).mpr hknown
    simp [he, hknown]

end RecordStore

/-! ## The step -/

/-- The entry that an answer to a lookup leaves: a record, `true`, or a failure. -/
def PoolEntry.ofAnswer : Except EvaluationError Evaluation → PoolEntry
  | .ok (.record r) => .var r
  | .ok (.truth true) => .value (.bool true)
  | .ok (.truth false) => .failed
  | .error _ => .failed

namespace PoolEntry

variable (answer : Except EvaluationError Evaluation)

theorem ofAnswer_eq_var_iff (r : Variable) :
    ofAnswer answer = .var r ↔ answer = .ok (.record r) := by
  rcases answer with e | _ | b
  · simp [ofAnswer]
  · simp [ofAnswer]
  · cases b <;> simp [ofAnswer]

theorem ofAnswer_eq_true_iff :
    ofAnswer answer = .value (.bool true) ↔ answer = .ok (.truth true) := by
  rcases answer with e | _ | b
  · simp [ofAnswer]
  · simp [ofAnswer]
  · cases b <;> simp [ofAnswer]

theorem ofAnswer_cases :
    ofAnswer answer = .failed ∨ ofAnswer answer = .value (.bool true) ∨
      ∃ r, ofAnswer answer = .var r := by
  rcases answer with e | r | b
  · exact Or.inl rfl
  · exact Or.inr (Or.inr ⟨r, rfl⟩)
  · cases b
    · exact Or.inl rfl
    · exact Or.inr (Or.inl rfl)

end PoolEntry

namespace Collaborators

variable {ρ ε β : Type}

/-- A lookup stores the entry of its answer under its name, and does nothing else. -/
theorem after_findRecord (store : RecordStore ρ) (outside : Outside ε β) (h : Heading)
    (condition : Condition) (m : Moment (ρ × ε)) :
    (searching store outside).after [.task h (.findRecord condition)] m =
      ⟨m.pool.set h.name
        (.ofAnswer (store.answer (condition.within h.object) m.pool m.state.1)), m.state⟩ := by
  rw [after, ran_task]
  simp only [performed, perform, findRecord, run_bind, searching_evaluate]
  rcases store.answer (condition.within h.object) m.pool m.state.1 with e | r | b
  · rfl
  · rfl
  · cases b <;> rfl

/-- A condition with an unknown operator is an error that names the first such operator, whatever
the other statements say. If all operators are known and no operand is a field of the matched
record, the answer is whether all statements hold for the pool. Neither answer looks at the store,
whatever it is. If some operand is such a field, the answer from records in memory is the first
record, in their order, that belongs to the collection of the condition and satisfies every
statement, and `false` when there is none. A lookup stores the record, `true` or a failure under
its name; it searches the collection of its condition, else that of the step if it has one, else
all records. -/
theorem record_lookup (condition : Condition) (pool : Pool) (table : RecordTable) :
    let answer := RecordStore.memory.answer condition pool table
    ((∃ e, answer = .error e) ↔ ∃ s ∈ condition.statements, ¬Operator.IsKnown s.operator) ∧
    (∀ e, answer = .error e ↔
      ∃ before s after, condition.statements = before ++ s :: after ∧
        (∀ t ∈ before, Operator.IsKnown t.operator) ∧ ¬Operator.IsKnown s.operator ∧
        e = .unsupportedOperator (Text.trim s.operator)) ∧
    (¬condition.IsWellSpelled ∨ ¬condition.NamesRecordField →
      ∀ (σ : Type) (list : Option String → StateM σ (Except StoreError (List Variable))) (s : σ),
        (condition.evaluate list pool).run s = (answer, s)) ∧
    (condition.IsWellSpelled → ¬condition.NamesRecordField →
      ∃ b, answer = .ok (.truth b) ∧ (b = true ↔ condition.Satisfied pool none)) ∧
    (condition.IsWellSpelled → condition.NamesRecordField →
      (∀ r, answer = .ok (.record r) ↔
        condition.IsFirstMatch pool condition.object table.values r) ∧
      ∀ b, answer = .ok (.truth b) ↔
        b = false ∧
          ∀ r ∈ table.values, r.InScope condition.object → ¬condition.Satisfied pool (some r)) ∧
    ∀ (ε β : Type) (outside : Outside ε β) (h : Heading) (e : ε),
      let c := searching .memory outside
      let scope := condition.object.or (if h.object = "" then none else some h.object)
      ∃ entry, c.after [.task h (.findRecord condition)] ⟨pool, (table, e)⟩ =
          ⟨pool.set h.name entry, (table, e)⟩ ∧
        (∀ r, entry = .var r ↔ condition.IsWellSpelled ∧ condition.NamesRecordField ∧
          condition.IsFirstMatch pool scope table.values r) ∧
        (entry = .value (.bool true) ↔ condition.IsWellSpelled ∧ ¬condition.NamesRecordField ∧
          condition.Satisfied pool none) ∧
        (entry = .failed ∨ entry = .value (.bool true) ∨ ∃ r, entry = .var r) := by
  intro answer
  refine ⟨?_, RecordStore.answer_memory_eq_error_iff condition pool table, ?_, ?_, ?_, ?_⟩
  · rw [RecordStore.exists_answer_memory_eq_error_iff, Condition.IsWellSpelled]
    simp only [Classical.not_forall, exists_prop]
  · intro h σ list s
    exact RecordStore.run_evaluate_eq_answer condition pool table list s h
  · exact RecordStore.answer_memory_of_settled pool table
  · exact RecordStore.answer_memory_of_search pool table
  · intro ε β outside h e c scope
    refine ⟨_, after_findRecord .memory outside h condition ⟨pool, (table, e)⟩, ?_, ?_, ?_⟩
    · intro r
      rw [PoolEntry.ofAnswer_eq_var_iff, RecordStore.answer_memory_eq_record_iff,
        condition.object_within]
      simp only [Condition.IsWellSpelled, Condition.NamesRecordField, Condition.IsFirstMatch,
        Condition.Satisfied, condition.statements_within, scope]
    · rw [PoolEntry.ofAnswer_eq_true_iff, RecordStore.answer_memory_eq_true_iff]
      simp only [Condition.IsWellSpelled, Condition.NamesRecordField, Condition.Satisfied,
        condition.statements_within]
    · exact PoolEntry.ofAnswer_cases _

/-- A lookup passes over a record of another collection than that of its step and over one that does
not satisfy the condition, and it stores the first of two that do. A condition whose second operator
is unknown fails though its first statement is false already. -/
theorem lookup_in_collection_of_step :
    let outside : Outside Unit Unit :=
      { send := fun _ => pure (.ok ()), request := fun _ => pure (.error (.timeout ""))
        openForm := fun _ => pure (.ok ()), setTextField := fun _ _ => pure (.ok ())
        flatten := pure (.ok ()), save := pure (.ok ()), store := fun _ _ => pure (.ok ())
        stamp := pure "0" }
    let record := fun id object value =>
      (id, (⟨id, "r", object, [("x", .str value)]⟩ : Variable))
    let table : RecordTable :=
      [record "1" "other" "a", record "2" "own" "b", record "3" "own" "a", record "4" "own" "a"]
    let condition : Condition := ⟨none, [⟨.recordField "x", " == ", .bare (.str "a")⟩]⟩
    let misspelled : Condition :=
      ⟨none, [⟨.recordField "x", "==", .bare .null⟩, ⟨.bare .null, "~", .bare .null⟩]⟩
    (searching .memory outside).after
        [.task ⟨"find", "found", "own"⟩ (.findRecord condition)] ⟨[], (table, ())⟩ =
      ⟨[("found", .var (record "3" "own" "a").2)], (table, ())⟩ ∧
    RecordStore.memory.answer misspelled [] table = .error (.unsupportedOperator "~") := by
  intro outside record table condition misspelled
  have hunknown : ¬Operator.IsKnown "~" := by
    rw [← Operator.ofText?_eq_none_iff]
    decide
  constructor
  · obtain ⟨entry, hafter, hvar, -, -⟩ := (record_lookup condition [] table).2.2.2.2.2 Unit Unit
      outside ⟨"find", "found", "own"⟩ ()
    have hentry : entry = .var (record "3" "own" "a").2 := by
      have hsatisfied : ∀ r : Variable, condition.Satisfied [] (some r) ↔
          Operator.equal.holds ((r.field? "x").getD .null) (.str "a") = true := by
        intro r
        simp only [Condition.Satisfied, condition, List.forall_mem_singleton]
        exact Statement.holds_iff (by decide) [] (some r)
      refine (hvar _).mpr ⟨?_, ⟨_, List.mem_singleton_self _, "x", Or.inl rfl⟩, ?_⟩
      · simpa [Condition.IsWellSpelled, condition] using ⟨.equal, by decide⟩
      · refine ⟨[(record "1" "other" "a").2, (record "2" "own" "b").2],
          [(record "4" "own" "a").2], rfl, ?_, ?_, ?_⟩
        · exact (Variable.inScope_iff _ _).mp (by decide)
        · exact (hsatisfied _).mpr (by decide)
        · simp only [List.forall_mem_cons, ← Variable.inScope_iff, hsatisfied]
          decide
    rw [hafter, hentry]
    rfl
  · exact ((record_lookup misspelled [] table).2.1 _).mpr
      ⟨[⟨.recordField "x", "==", .bare .null⟩], ⟨.bare .null, "~", .bare .null⟩, [], rfl,
        by simpa using ⟨.equal, by decide⟩, hunknown, rfl⟩

end Collaborators

end Stepwise
