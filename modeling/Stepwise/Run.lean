import Stepwise.Run.Task

/-!
# Running workflows

The steps of a workflow run in order against one pool. The outcome of each step of a known type is
folded into the run by the policy of its type: it is written under the name of the step, or it
becomes the last result. A branch whose condition holds runs its steps against the same pool; its
outcome is their payload when that has content, and the pool otherwise. A step of an unknown type
is passed over.
-/

namespace Stepwise

/-- A run between two steps: the pool, and the outcome of the last step that set a result. -/
structure Progress where
  pool : Pool
  last : Option StepOutcome

namespace Progress

def start (pool : Pool) : Progress := ⟨pool, none⟩

/-- Fold the outcome of a step into the run. -/
def settle (p : Progress) (policy : OutputPolicy) (name : String) (outcome : StepOutcome) :
    Progress :=
  match policy with
  | .writePool => { p with pool := p.pool.set name (outcome.toEntry p.pool) }
  | .setResult => { p with last := some outcome }

/-- The result if the run ends here. -/
def result (p : Progress) : RunResult :=
  RunResult.ofOutcome p.pool p.last

/-- The outcome of a branch whose steps ran this far. -/
def branchOutcome (p : Progress) : StepOutcome :=
  match p.result with
  | .payload v => if (RunResult.payload v).hasContent then .ofValue v else .pool
  | _ => .pool

end Progress

/-- Whether the condition of a branch holds; one that does not evaluate does not hold. -/
def branchHolds : Except EvaluationError Evaluation → Bool
  | .ok evaluation => evaluation.truthy
  | .error _ => false

namespace Collaborators

variable {σ β : Type}

mutual

/-- Run one step. -/
def runStep (c : Collaborators σ β) : Step → Progress → StateM σ Progress
  | .task h task, p => do
      let outcome ← c.perform h.object task p.pool
      return p.settle task.kind.policy h.name outcome
  | .branch h condition steps, p => do
      let evaluation ← c.evaluate (condition.within h.object) p.pool
      if branchHolds evaluation then
        let nested ← runSteps c steps (.start p.pool)
        return ({ p with pool := nested.pool }).settle StepKind.branch.policy h.name
          nested.branchOutcome
      else
        return p.settle StepKind.branch.policy h.name .pool
  | .unknown _ _ _, p => return p

/-- Run steps one after another. -/
def runSteps (c : Collaborators σ β) : List Step → Progress → StateM σ Progress
  | [], p => return p
  | s :: rest, p => do
      let next ← runStep c s p
      runSteps c rest next

end

/-- Run a workflow against a pool: the result, and the pool with every write of the run. -/
def run (c : Collaborators σ β) (workflow : Workflow) (pool : Pool) :
    StateM σ (RunResult × Pool) := do
  let done ← c.runSteps workflow.steps (.start pool)
  return (done.result, done.pool)

end Collaborators

end Stepwise
