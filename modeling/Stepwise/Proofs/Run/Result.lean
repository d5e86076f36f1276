import Stepwise.Proofs.Run.Composition
import Stepwise.Rehearsal

/-!
# What decides a result

A run is completed when none of its steps sets a result. Otherwise the last such step decides
alone: a call of an API or a form that is filled by its value or its failure, a branch by what its
steps end in, if that has content, and by the pool at the end of the whole run in all other cases.
-/

namespace Stepwise

/-- A text or a list that is not empty. -/
def Json.IsContent (v : Json) : Prop :=
  (∃ s, v = .str s ∧ s ≠ "") ∨ ∃ items, v = .arr items ∧ items ≠ []

theorem RunResult.hasContent_payload_iff (v : Json) :
    (RunResult.payload v).hasContent = true ↔ v.IsContent := by
  cases v <;> simp [RunResult.hasContent, Json.IsContent]

/-- A plain value or a failure, and neither a record nor the pool. -/
def StepOutcome.IsPlain (outcome : StepOutcome) : Prop :=
  (∃ v, outcome = .ofValue v) ∨ outcome = .failed

/-- Whatever the state, a computation gives an answer with a property. -/
def Gives {σ α : Type} (P : α → Prop) (x : StateM σ α) : Prop := ∀ s, P (x.run s).1

theorem gives_pure {σ α : Type} {P : α → Prop} {a : α} (h : P a) :
    Gives P (pure a : StateM σ α) := fun _ => h

theorem gives_bind {σ α γ : Type} {P : γ → Prop} (x : StateM σ α) {f : α → StateM σ γ}
    (h : ∀ a, Gives P (f a)) : Gives P (x >>= f) := fun s => h (x.run s).1 (x.run s).2

namespace Collaborators

variable {σ β : Type} (c : Collaborators σ β)

theorem callApi_plain (call : ApiCall) : Gives StepOutcome.IsPlain (c.callApi call) := by
  unfold callApi
  cases call.request? with
  | none => exact gives_pure (Or.inr rfl)
  | some request =>
      refine gives_bind _ fun reply => ?_
      cases reply with
      | error e => exact gives_pure (Or.inr rfl)
      | ok response =>
          apply gives_pure
          split
          · exact Or.inl ⟨response.body, rfl⟩
          · exact Or.inr rfl

theorem finishForm_plain (settings : CreatePdf) :
    Gives StepOutcome.IsPlain (c.finishForm settings) := by
  refine gives_bind _ fun locked => ?_
  cases locked with
  | error e => exact gives_pure (Or.inr rfl)
  | ok _ =>
      refine gives_bind _ fun saved => ?_
      cases saved with
      | error e => exact gives_pure (Or.inr rfl)
      | ok bytes =>
          refine gives_bind _ fun stamp => gives_bind _ fun stored => ?_
          cases stored with
          | error e => exact gives_pure (Or.inr rfl)
          | ok _ => exact gives_pure (Or.inl ⟨_, rfl⟩)

theorem createPdf_plain (settings : CreatePdf) (pool : Pool) :
    Gives StepOutcome.IsPlain (c.createPdf settings pool) := by
  unfold createPdf
  cases Pool.variableNamed? pool settings.source.value with
  | none => exact gives_pure (Or.inr rfl)
  | some source =>
      refine gives_bind _ fun opened => ?_
      cases opened with
      | error e => exact gives_pure (Or.inr rfl)
      | ok _ => exact gives_bind _ fun _ => c.finishForm_plain settings

/-- A task that sets a result ends in a plain value or fails. -/
theorem performed_plain {h : Heading} {task : Task}
    (hs : (Step.task h task).setsResult = true) (m : Moment σ) :
    (c.performed h task m).1.IsPlain := by
  cases task with
  | apiCall call => exact c.callApi_plain call m.state
  | createPdf settings => exact c.createPdf_plain settings m.pool m.state
  | findRecord condition => cases hs
  | sendEmail settings => cases hs
  | updateRecord settings => cases hs

/-! ## The result of one step -/

theorem resultOf_task {h : Heading} {task : Task} (hs : (Step.task h task).setsResult = true)
    (m : Moment σ) :
    c.resultOf [.task h task] m = .ofOutcome m.pool (some (c.performed h task m).1) := by
  rw [resultOf, ran_task, (Step.setsResult_task h task).mp hs]
  rfl

/-- A branch pays a value when its condition is answered and true, and its steps end in this value
as a payload, which is a text or a list that is not empty. -/
def BranchPays (h : Heading) (condition : Condition) (steps : List Step) (m : Moment σ)
    (v : Json) : Prop :=
  (∃ evaluation, (c.judged h condition m).1 = .ok evaluation ∧ evaluation.truthy = true) ∧
    c.resultOf steps (c.asked h condition m) = .payload v ∧ v.IsContent

theorem resultOf_branch_of_pays {h : Heading} {condition : Condition} {steps : List Step}
    {m : Moment σ} {v : Json} (hpays : c.BranchPays h condition steps m v) :
    c.resultOf [.branch h condition steps] m = .payload v := by
  obtain ⟨henters, hnested, hv⟩ := hpays
  have houtcome : (c.ran steps (c.asked h condition m)).1.branchOutcome = .ofValue v := by
    rw [resultOf] at hnested
    simp only [Progress.branchOutcome, hnested]
    exact if_pos ((RunResult.hasContent_payload_iff v).mpr hv)
  rw [resultOf, ran_branch, if_pos (c.enters_iff.mpr henters), houtcome]
  rfl

theorem resultOf_branch_otherwise {h : Heading} {condition : Condition} {steps : List Step}
    {m : Moment σ}
    (hno : ¬∃ v, c.BranchPays h condition steps m v) :
    c.resultOf [.branch h condition steps] m =
      .pool (c.after [.branch h condition steps] m).pool := by
  by_cases henters : c.enters h condition m = true
  · have houtcome : (c.ran steps (c.asked h condition m)).1.branchOutcome = .pool := by
      unfold Progress.branchOutcome
      split
      · rename_i v hnested
        refine if_neg fun hcontent => hno ⟨v, c.enters_iff.mp henters, hnested, ?_⟩
        exact (RunResult.hasContent_payload_iff v).mp hcontent
      · rfl
    rw [resultOf, after, ran_branch, if_pos henters, houtcome]
    rfl
  · rw [resultOf, after, ran_branch, if_neg henters]
    rfl

/-! ## The result of a run -/

/-- The last step that sets a result decides alone; a pool is that at the end of the run. -/
theorem resultOf_eq_last (pre : List Step) (last : Step) {post : List Step}
    (hlast : last.setsResult = true) (hpost : ∀ step ∈ post, step.setsResult = false)
    (m : Moment σ) :
    c.resultOf (pre ++ last :: post) m =
      (c.resultOf [last] (c.after pre m)).carriedTo (c.after (pre ++ last :: post) m).pool := by
  have hsplit : pre ++ last :: post = (pre ++ [last]) ++ post := by simp
  have hnone : post.any Step.setsResult = false := by simpa using hpost
  have hone : [last].any Step.setsResult = true := by simpa using hlast
  rw [hsplit, resultOf_append, hnone, resultOf_append, hone, after_append _ (pre ++ [last])]
  rfl

theorem resultOf_eq_completed_iff (steps : List Step) (m : Moment σ) :
    c.resultOf steps m = .completed ↔ ∀ step ∈ steps, step.setsResult = false := by
  have hlast := c.last_ran steps m
  rw [resultOf, Progress.result]
  cases hs : (c.ran steps m).1.last with
  | none =>
      rw [hs] at hlast
      have hnone : steps.any Step.setsResult = false := hlast.symm
      exact ⟨fun _ => by simpa using hnone, fun _ => rfl⟩
  | some outcome =>
      rw [hs] at hlast
      have hsome : steps.any Step.setsResult = true := hlast.symm
      obtain ⟨step, hmem, hset⟩ := List.any_eq_true.mp hsome
      constructor
      · intro hcompleted
        cases outcome with
        | succeeded entry => cases entry <;> cases hcompleted
        | pool => cases hcompleted
        | failed => cases hcompleted
      · intro hnone
        rw [hnone step hmem] at hset
        cases hset

/-- Of a branch that decides, a payload shows just what the branch pays; otherwise there is the
pool, as when the condition is false or has no answer, and never a failure or a mere completion. -/
theorem carriedTo_resultOf_branch (h : Heading) (condition : Condition) (steps : List Step)
    (m : Moment σ) (final : Pool) :
    let result := (c.resultOf [.branch h condition steps] m).carriedTo final
    (∀ v, result = .payload v ↔ c.BranchPays h condition steps m v) ∧
      ((¬∃ v, c.BranchPays h condition steps m v) → result = .pool final) ∧
      (∀ evaluation, (c.judged h condition m).1 = .ok evaluation → evaluation.truthy = false →
        result = .pool final) ∧
      (∀ e, (c.judged h condition m).1 = .error e → result = .pool final) ∧
      result ≠ .failed ∧ result ≠ .completed := by
  intro result
  suffices hpays : (∀ v, result = .payload v ↔ c.BranchPays h condition steps m v) ∧
      ((¬∃ v, c.BranchPays h condition steps m v) → result = .pool final) ∧
      result ≠ .failed ∧ result ≠ .completed by
    obtain ⟨hpayload, hpool, hnever⟩ := hpays
    refine ⟨hpayload, hpool, fun evaluation hanswer hfalse => hpool ?_,
      fun e hanswer => hpool ?_, hnever⟩
    · rintro ⟨v, ⟨other, hother, htrue⟩, -⟩
      obtain rfl := Except.ok.inj (hanswer.symm.trans hother)
      rw [hfalse] at htrue
      cases htrue
    · rintro ⟨v, ⟨other, hother, -⟩, -⟩
      rw [hanswer] at hother
      cases hother
  by_cases hv : ∃ v, c.BranchPays h condition steps m v
  · obtain ⟨v, hpays⟩ := hv
    have hresult : result = .payload v := by
      simp only [result, c.resultOf_branch_of_pays hpays, RunResult.carriedTo]
    rw [hresult]
    refine ⟨fun w => ⟨fun hw => ?_, fun hw => ?_⟩, fun hno => ?_, nofun, nofun⟩
    · exact RunResult.payload.inj hw ▸ hpays
    · exact hpays.2.1.symm.trans hw.2.1
    · exact absurd ⟨v, hpays⟩ hno
  · have hresult : result = .pool final := by
      simp only [result, c.resultOf_branch_otherwise hv, RunResult.carriedTo]
    rw [hresult]
    exact ⟨fun w => ⟨nofun, fun hw => absurd ⟨w, hw⟩ hv⟩, fun _ => rfl, nofun, nofun⟩

/-- A run is completed exactly when no step of the workflow sets a result. Otherwise the last such
step decides: a task by the value it ends in or by its failure, a branch by the payload of its
steps when its condition is true and the payload has content, and in every other case by the pool
as it stands when the whole run is over, so also when the condition is false or has no answer. -/
theorem run_result_decided (workflow : Workflow) (pool : Pool) (s : σ) :
    let result := ((c.run workflow pool).run s).1.1
    let final := ((c.run workflow pool).run s).1.2
    (result = .completed ↔ ∀ step ∈ workflow.steps, step.setsResult = false) ∧
    (∀ pre h task post, workflow.steps = pre ++ .task h task :: post →
      (Step.task h task).setsResult = true → (∀ step ∈ post, step.setsResult = false) →
      let outcome := (c.performed h task (c.after pre ⟨pool, s⟩)).1
      (∃ v, outcome = .ofValue v ∧ result = .payload v) ∨
        (outcome = .failed ∧ result = .failed)) ∧
    (∀ pre h condition steps post, workflow.steps = pre ++ .branch h condition steps :: post →
      (∀ step ∈ post, step.setsResult = false) →
      let start := c.after pre ⟨pool, s⟩
      (∀ v, result = .payload v ↔ c.BranchPays h condition steps start v) ∧
        ((¬∃ v, c.BranchPays h condition steps start v) → result = .pool final) ∧
        (∀ evaluation, (c.judged h condition start).1 = .ok evaluation →
          evaluation.truthy = false → result = .pool final) ∧
        (∀ e, (c.judged h condition start).1 = .error e → result = .pool final) ∧
        result ≠ .failed ∧ result ≠ .completed) := by
  intro result final
  have hdecided : ∀ pre last post, workflow.steps = pre ++ last :: post →
      last.setsResult = true → (∀ step ∈ post, step.setsResult = false) →
      result = (c.resultOf [last] (c.after pre ⟨pool, s⟩)).carriedTo final := by
    intro pre last post hsteps hlast hpost
    have heq := c.resultOf_eq_last pre last hlast hpost ⟨pool, s⟩
    rw [← hsteps] at heq
    exact heq
  refine ⟨c.resultOf_eq_completed_iff workflow.steps ⟨pool, s⟩, ?_, ?_⟩
  · intro pre h task post hsteps hset hpost outcome
    rw [hdecided pre _ post hsteps hset hpost, c.resultOf_task hset]
    rcases c.performed_plain hset (c.after pre ⟨pool, s⟩) with ⟨v, hv⟩ | hfailed
    · exact Or.inl ⟨v, hv, by rw [hv]; rfl⟩
    · exact Or.inr ⟨hfailed, by rw [hfailed]; rfl⟩
  · intro pre h condition steps post hsteps hpost start
    rw [hdecided pre _ post hsteps rfl hpost]
    exact c.carriedTo_resultOf_branch h condition steps start final

/-- A branch that ends in an object decides for the pool, with the write of the step behind it,
and a call with a method that is not supported decides for a failure. -/
theorem object_in_branch_decides_pool :
    let stage := Rehearsal.smooth {} (.table []) "0"
    let call := fun method =>
      Step.task ⟨"call", "call", ""⟩ (.apiCall ⟨⟨"http://a", method, []⟩, []⟩)
    let mail :=
      Step.task ⟨"mail", "mail", ""⟩ (.sendEmail ⟨⟨⟨.literal, .str "a@b.c"⟩, none, none⟩⟩)
    ((Rehearsal.collaborators.run
        ⟨"branch", none, none, [.branch ⟨"if", "if", ""⟩ .always [call .get], mail]⟩ []).run
      stage).1.1 = .pool [("mail", .value (.bool true))] ∧
    ((Rehearsal.collaborators.run
        ⟨"call", none, none, [call .unsupported, mail]⟩ []).run stage).1.1 = .failed := by
  intro stage call mail
  have hmail : ∀ step ∈ [mail], step.setsResult = false := by simp [mail, Step.setsResult]
  constructor
  · have hbranch := (run_result_decided Rehearsal.collaborators
      ⟨"branch", none, none, [.branch ⟨"if", "if", ""⟩ .always [call .get], mail]⟩ [] stage).2.2
      [] ⟨"if", "if", ""⟩ .always [call .get] [mail] rfl hmail
    refine hbranch.2.1 ?_
    rintro ⟨v, -, hnested, ⟨s, rfl, -⟩ | ⟨items, rfl, -⟩⟩ <;> cases hnested
  · have htask := (run_result_decided Rehearsal.collaborators
      ⟨"call", none, none, [call .unsupported, mail]⟩ [] stage).2.1
      [] ⟨"call", "call", ""⟩ (.apiCall ⟨⟨"http://a", .unsupported, []⟩, []⟩) [mail] rfl rfl hmail
    rcases htask with ⟨v, hv, -⟩ | ⟨-, hfailed⟩
    · cases hv
    · exact hfailed

end Collaborators

end Stepwise
