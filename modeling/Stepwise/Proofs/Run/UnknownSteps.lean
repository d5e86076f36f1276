import Stepwise.CommandLine.Program
import Stepwise.Proofs.Outline
import Stepwise.Proofs.Run.Calls
import Stepwise.Proofs.Run.Visits

/-!
# Steps of unknown types

A step of an unknown type can be taken out of a workflow, at any depth, without a trace in any run.
What the validation of a workflow reports is therefore what a run may pass over: the outline that
it prints lists every step once, and it reports no unknown type exactly when no run comes to a
step of one.
-/

namespace Stepwise

open CommandLine (isUnknown)

namespace Step

/-- A step that is not marked is none that a run passes over. -/
theorem isUnknown_eq_false_iff {s : Step} :
    isUnknown s = false ↔ ∀ h type config, s ≠ .unknown h type config := by
  cases s <;> simp [isUnknown, kind?]

mutual

/-- The step without the steps of unknown types inside it. -/
def pruned : Step → Step
  | .branch h condition steps => .branch h condition (prunedAll steps)
  | s => s

/-- The steps that are not reported as unknown, each without those inside it that are. -/
def prunedAll : List Step → List Step
  | [] => []
  | s :: rest => if isUnknown s then prunedAll rest else s.pruned :: prunedAll rest

end

mutual

theorem outline_pruned (depth : Nat) : ∀ s : Step, isUnknown s = false →
    s.pruned.outline depth =
      ((s.outline depth).filter fun line => !isUnknown line.2).map
        fun line => (line.1, line.2.pruned)
  | .task h t, _ => by
      rw [pruned, outline]
      · rfl
      · nofun
      · nofun
  | .unknown h type config, hknown => by cases hknown
  | .branch h condition steps, hknown => by
      rw [pruned, outline, outline, List.filter_cons, hknown, outlineAll_pruned (depth + 1) steps]
      rfl

/-- Pruning takes out of an outline the lines of steps of unknown types and no others. -/
theorem outlineAll_pruned (depth : Nat) : ∀ steps : List Step,
    outlineAll depth (prunedAll steps) =
      ((outlineAll depth steps).filter fun line => !isUnknown line.2).map
        fun line => (line.1, line.2.pruned)
  | [] => rfl
  | s :: rest => by
      rw [prunedAll, outlineAll, List.filter_append, List.map_append,
        ← outlineAll_pruned depth rest]
      by_cases hs : isUnknown s = true
      · have hgone : ((s.outline depth).filter fun line => !isUnknown line.2) = [] := by
          cases s with
          | unknown h type config => rfl
          | task h t => cases hs
          | branch h condition steps => cases hs
        rw [if_pos hs, hgone, List.map_nil, List.nil_append]
      · rw [if_neg hs, outlineAll, outline_pruned depth s (Bool.eq_false_iff.mpr hs)]

end

end Step

/-- The workflow without its steps of unknown types, at any depth. -/
def Workflow.pruned (w : Workflow) : Workflow :=
  { w with steps := Step.prunedAll w.steps }

namespace Collaborators

variable {σ β : Type} (c : Collaborators σ β)

/-! ## Runs without the unknown steps -/

mutual

theorem runStep_pruned : ∀ (s : Step) (p : Progress), c.runStep s.pruned p = c.runStep s p
  | .task h t, p => by
      rw [Step.pruned]
      nofun
  | .unknown h type config, p => by
      rw [Step.pruned]
      nofun
  | .branch h condition steps, p => by
      rw [Step.pruned, runStep, runStep, runSteps_pruned steps]

/-- Running steps does the same as running them without those of unknown types. -/
theorem runSteps_pruned : ∀ (steps : List Step) (p : Progress),
    c.runSteps (Step.prunedAll steps) p = c.runSteps steps p
  | [], p => by rw [Step.prunedAll]
  | s :: rest, p => by
      have hrest : c.runSteps (Step.prunedAll rest) = c.runSteps rest :=
        funext fun q => runSteps_pruned rest q
      by_cases hs : isUnknown s = true
      · cases s with
        | unknown h type config =>
            rw [Step.prunedAll, if_pos hs, hrest, runSteps, runStep, pure_bind]
        | task h t => cases hs
        | branch h condition steps => cases hs
      · rw [Step.prunedAll, if_neg hs, runSteps, runSteps, hrest, runStep_pruned s p]

end

theorem ran_pruned (steps : List Step) (m : Moment σ) :
    c.ran (Step.prunedAll steps) m = c.ran steps m := by
  rw [ran, runSteps_pruned, ran]

theorem calls_pruned (steps : List Step) (m : Moment σ) :
    c.calls (Step.prunedAll steps) m = c.calls steps m := by
  rw [calls, ran_pruned, calls]

/-! ## Runs that come to every step -/

/-- The same collaborators, with another evaluation of conditions. -/
def judging (judge : Condition → Pool → StateM σ (Except EvaluationError Evaluation)) :
    Collaborators σ β :=
  { c with evaluate := judge }

/-- The evaluation for which every condition holds. -/
def agree {σ : Type} (_ : Condition) (_ : Pool) :
    StateM σ (Except EvaluationError Evaluation) :=
  pure (.ok (.truth true))

theorem enters_agree (h : Heading) (condition : Condition) (m : Moment σ) :
    (c.judging agree).enters h condition m = true := rfl

mutual

theorem visitsOf_agree (depth : Nat) : ∀ (s : Step) (m : Moment σ),
    ((c.judging agree).visitsOf depth s m).map (fun v => (v.depth, v.step)) = s.outline depth
  | .task h t, m => by
      rw [visitsOf, Step.outline]
      · rfl
      · nofun
  | .unknown h type config, m => by
      rw [visitsOf, Step.outline]
      · rfl
      · nofun
  | .branch h condition steps, m => by
      rw [visitsOf, Step.outline, if_pos (c.enters_agree h condition m), List.map_cons,
        visits_agree (depth + 1) steps]

/-- Where every condition holds, a run comes to all steps in the order of the outline. -/
theorem visits_agree (depth : Nat) : ∀ (steps : List Step) (m : Moment σ),
    ((c.judging agree).visits depth steps m).map (fun v => (v.depth, v.step)) =
      Step.outlineAll depth steps
  | [], m => rfl
  | s :: rest, m => by
      rw [visits, Step.outlineAll, List.map_append, visitsOf_agree depth s m,
        visits_agree depth rest]

end

end Collaborators

/-! ## What validation reports -/

namespace CommandLine

theorem unknownCount_eq_zero_iff (w : Workflow) :
    unknownCount [w] = 0 ↔ ∀ line ∈ w.outline, isUnknown line.2 = false := by
  simp [unknownCount, List.countP_eq_zero]

/-- The validation of a workflow prints its outline, and fails if it counts unknown steps. -/
theorem validate_eq (files : FileTree) (w : Workflow) :
    (validate files [w]).output = printed (w.name :: w.outline.map stepLine) ∧
      (validate files [w]).error =
        if unknownCount [w] = 0 then none
        else some (Failure.unknownSteps (unknownCount [w])).message := by
  have hlines : [w].flatMap workflowLines = w.name :: w.outline.map stepLine :=
    List.flatMap_singleton workflowLines w
  rw [validate, hlines]
  by_cases hcount : unknownCount [w] = 0
  · simp only [if_pos hcount]
    exact ⟨rfl, rfl⟩
  · simp only [if_neg hcount]
    exact ⟨rfl, rfl⟩

theorem validate_error_eq_none_iff (files : FileTree) (w : Workflow) :
    (validate files [w]).error = none ↔ ∀ line ∈ w.outline, isUnknown line.2 = false := by
  rw [(validate_eq files w).2, ← unknownCount_eq_zero_iff]
  by_cases hcount : unknownCount [w] = 0
  · rw [if_pos hcount]
    exact iff_of_true rfl hcount
  · rw [if_neg hcount]
    exact iff_of_false nofun hcount

end CommandLine

/-- A run of a workflow does the same without the steps of unknown types, which are just those that
validation marks: its result, the pool, the state of the collaborators and their calls do not
change. Validation prints every step of the workflow once, by the order of the places at which the
steps stand, a branch in front of the steps inside it, with the count of the branches around it.
It reports no unknown type exactly when no run, for any pool and any answers to conditions, comes
to a step that it passes over. -/
theorem validation_agrees_with_runs (w : Workflow) :
    (∀ {σ β : Type} (c : Collaborators σ β) (pool : Pool) (s : σ),
      (c.run w.pruned pool).run s = (c.run w pool).run s ∧
      c.calls w.pruned.steps ⟨pool, s⟩ = c.calls w.steps ⟨pool, s⟩) ∧
    (w.pruned.outline = (w.outline.filter fun line => !isUnknown line.2).map
      fun line => (line.1, line.2.pruned)) ∧
    (∃ places : List (List Nat × Step),
      (places.map Prod.fst).Pairwise (· < ·) ∧
      (∀ path step, (path, step) ∈ places ↔ Step.stepAt? path w.steps = some step) ∧
      w.outline = places.map fun p => (p.1.length - 1, p.2)) ∧
    ∀ files : FileTree,
      (CommandLine.validate files [w]).output =
        CommandLine.printed (w.name :: w.outline.map CommandLine.stepLine) ∧
      ∀ {σ β : Type} (c : Collaborators σ β) (s : σ),
        (CommandLine.validate files [w]).error = none ↔
          ∀ pool judge, ∀ v ∈ (c.judging judge).visits 0 w.steps ⟨pool, s⟩,
            ∀ h type config, v.step ≠ .unknown h type config := by
  refine ⟨fun c pool s => ⟨?_, c.calls_pruned w.steps ⟨pool, s⟩⟩,
    Step.outlineAll_pruned 0 w.steps, ⟨Step.placesAll 0 w.steps, ?_, ?_, ?_⟩,
    fun files => ⟨(CommandLine.validate_eq files w).1, fun c s => ?_⟩⟩
  · have hran := c.ran_pruned w.steps ⟨pool, s⟩
    rw [Collaborators.run_eq, Collaborators.run_eq, Collaborators.resultOf, Collaborators.after,
      Workflow.pruned, hran]
    rfl
  · exact Step.placesAll_pairwise 0 w.steps
  · intro path step
    rw [Step.mem_placesAll_iff]
    constructor
    · rintro ⟨j, rest, rfl, hat⟩
      rw [Nat.zero_add]
      exact hat
    · intro hat
      cases path with
      | nil => cases hat
      | cons j rest => exact ⟨j, rest, by rw [Nat.zero_add], hat⟩
  · rw [Workflow.outline, Step.outlineAll_eq 0 0]
    simp only [Nat.zero_add]
  · simp only [CommandLine.validate_error_eq_none_iff, ← Step.isUnknown_eq_false_iff]
    constructor
    · intro hknown pool judge v hv
      exact hknown _ ((c.judging judge).mem_outlineAll_of_mem_visits 0 w.steps _ v hv)
    · intro hnone line hline
      rw [Workflow.outline, ← c.visits_agree 0 w.steps ⟨[], s⟩] at hline
      obtain ⟨v, hv, rfl⟩ := List.mem_map.mp hline
      exact hnone [] Collaborators.agree v hv

end Stepwise
