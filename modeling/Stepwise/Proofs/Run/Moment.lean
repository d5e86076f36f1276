import Stepwise.Run

/-!
# Moments of a run

Between two of its steps a run shows the pool and the state of the collaborators; the outcome that
it remembers is never read by a step. So steps act on such moments, one list after another: what
steps lead to does not depend on what was remembered before, and the later outcome counts.
-/

namespace Stepwise

/-- What a run shows between two steps: the pool, and the state of the collaborators. -/
@[ext]
structure Moment (σ : Type) where
  pool : Pool
  state : σ

/-- Whether a step is one of those that decide the result of a run: a call of an API, a form that
is filled, or a branch. -/
def Step.setsResult : Step → Bool
  | .task _ (.apiCall _) => true
  | .task _ (.createPdf _) => true
  | .branch _ _ _ => true
  | _ => false

theorem Step.setsResult_task (h : Heading) (task : Task) :
    (Step.task h task).setsResult = true ↔ task.kind.policy = .setResult := by
  cases task <;> simp [Step.setsResult, Task.kind, StepKind.policy]

/-- A computation on a state runs its first part and then the second on what that part left. -/
theorem run_bind {σ α γ : Type} (x : StateM σ α) (f : α → StateM σ γ) (s : σ) :
    (x >>= f).run s = (f (x.run s).1).run (x.run s).2 := rfl

theorem run_pure {σ α : Type} (a : α) (s : σ) : (pure a : StateM σ α).run s = (a, s) := rfl

namespace Progress

/-- The progress of a run that went on from one progress and made another one. -/
def andThen (p q : Progress) : Progress := ⟨q.pool, q.last.or p.last⟩

theorem andThen_assoc (p q r : Progress) :
    (p.andThen q).andThen r = p.andThen (q.andThen r) := by
  simp [andThen, Option.or_assoc]

@[simp] theorem andThen_start (p : Progress) : p.andThen (start p.pool) = p := rfl

/-- Settling an outcome reads nothing of the run but its pool. -/
theorem settle_eq_andThen (p : Progress) (policy : OutputPolicy) (name : String)
    (outcome : StepOutcome) :
    p.settle policy name outcome = p.andThen ((start p.pool).settle policy name outcome) := by
  cases policy <;> rfl

end Progress

namespace Collaborators

variable {σ β : Type} (c : Collaborators σ β)

/-- The progress of steps that are run from a moment, and the state they leave. -/
def ran (steps : List Step) (m : Moment σ) : Progress × σ :=
  (c.runSteps steps (.start m.pool)).run m.state

/-- The moment at which steps that are run from a moment end. -/
def after (steps : List Step) (m : Moment σ) : Moment σ :=
  ⟨(c.ran steps m).1.pool, (c.ran steps m).2⟩

/-- The result of steps that are run from a moment. -/
def resultOf (steps : List Step) (m : Moment σ) : RunResult :=
  (c.ran steps m).1.result

/-- A workflow is run by running its steps from the given pool. -/
theorem run_eq (workflow : Workflow) (pool : Pool) (s : σ) :
    (c.run workflow pool).run s =
      ((c.resultOf workflow.steps ⟨pool, s⟩, (c.after workflow.steps ⟨pool, s⟩).pool),
        (c.after workflow.steps ⟨pool, s⟩).state) := rfl

/-! ## What is remembered is not read -/

theorem runStep_andThen (step : Step) (p : Progress) (s : σ) :
    (c.runStep step p).run s =
      (p.andThen ((c.runStep step (.start p.pool)).run s).1,
        ((c.runStep step (.start p.pool)).run s).2) := by
  cases step with
  | task h task =>
      simp only [runStep, run_bind, run_pure, Progress.start]
      rw [Progress.settle_eq_andThen]
      rfl
  | branch h condition steps =>
      simp only [runStep, run_bind, Progress.start]
      split <;> rfl
  | unknown h type config => rfl

/-- Steps lead to the same whatever outcome is remembered when they start. -/
theorem runSteps_andThen (steps : List Step) (p : Progress) (s : σ) :
    (c.runSteps steps p).run s =
      (p.andThen (c.ran steps ⟨p.pool, s⟩).1, (c.ran steps ⟨p.pool, s⟩).2) := by
  induction steps generalizing p s with
  | nil => rfl
  | cons step rest ih =>
      simp only [ran, runSteps, run_bind]
      rw [runStep_andThen, ih, ih]
      simp only [Progress.andThen_assoc]
      rfl

/-! ## One list of steps after another -/

theorem ran_append (xs ys : List Step) (m : Moment σ) :
    c.ran (xs ++ ys) m =
      ((c.ran xs m).1.andThen (c.ran ys (c.after xs m)).1, (c.ran ys (c.after xs m)).2) := by
  have happend : ∀ p, c.runSteps (xs ++ ys) p = c.runSteps xs p >>= c.runSteps ys := by
    induction xs with
    | nil => intro p; simp [runSteps]
    | cons step rest ih => intro p; simp [runSteps, ih]
  rw [ran, happend, run_bind, runSteps_andThen]
  rfl

@[simp] theorem after_nil (m : Moment σ) : c.after [] m = m := rfl

theorem after_append (xs ys : List Step) (m : Moment σ) :
    c.after (xs ++ ys) m = c.after ys (c.after xs m) := by
  simp only [after, ran_append]
  rfl

theorem after_cons (step : Step) (rest : List Step) (m : Moment σ) :
    c.after (step :: rest) m = c.after rest (c.after [step] m) :=
  c.after_append [step] rest m

/-! ## One step -/

/-- The outcome of a task at a moment, and the state it leaves. -/
def performed (h : Heading) (task : Task) (m : Moment σ) : StepOutcome × σ :=
  (c.perform h.object task m.pool).run m.state

/-- The answer to the condition of a branch at a moment, and the state it leaves. -/
def judged (h : Heading) (condition : Condition) (m : Moment σ) :
    Except EvaluationError Evaluation × σ :=
  (c.evaluate (condition.within h.object) m.pool).run m.state

/-- Whether the steps of a branch are run. -/
def enters (h : Heading) (condition : Condition) (m : Moment σ) : Bool :=
  branchHolds (c.judged h condition m).1

/-- The steps of a branch are run when the answer is there and true. -/
theorem enters_iff {h : Heading} {condition : Condition} {m : Moment σ} :
    c.enters h condition m = true ↔
      ∃ evaluation, (c.judged h condition m).1 = .ok evaluation ∧ evaluation.truthy = true := by
  rw [enters]
  cases (c.judged h condition m).1 <;> simp [branchHolds]

/-- The moment at which the condition of a branch has been answered. -/
def asked (h : Heading) (condition : Condition) (m : Moment σ) : Moment σ :=
  ⟨m.pool, (c.judged h condition m).2⟩

theorem ran_task (h : Heading) (task : Task) (m : Moment σ) :
    c.ran [.task h task] m =
      ((Progress.start m.pool).settle task.kind.policy h.name (c.performed h task m).1,
        (c.performed h task m).2) := rfl

theorem ran_branch (h : Heading) (condition : Condition) (steps : List Step) (m : Moment σ) :
    c.ran [.branch h condition steps] m =
      if c.enters h condition m then
        (⟨(c.after steps (c.asked h condition m)).pool,
          some (c.ran steps (c.asked h condition m)).1.branchOutcome⟩,
          (c.after steps (c.asked h condition m)).state)
      else (⟨m.pool, some .pool⟩, (c.asked h condition m).state) := by
  by_cases hb : c.enters h condition m = true
  · have hholds : branchHolds
        ((c.evaluate (condition.within h.object) m.pool).run m.state).1 = true := hb
    simp only [ran, runSteps, runStep, run_bind, Progress.start, hb, hholds, if_true]
    rfl
  · have hholds : ¬branchHolds
        ((c.evaluate (condition.within h.object) m.pool).run m.state).1 = true := hb
    simp only [ran, runSteps, runStep, run_bind, Progress.start, hb, hholds]
    rfl

/-- A branch does what its steps do when its condition holds, and nothing else otherwise. -/
theorem after_branch (h : Heading) (condition : Condition) (steps : List Step) (m : Moment σ) :
    c.after [.branch h condition steps] m =
      if c.enters h condition m then c.after steps (c.asked h condition m)
      else c.asked h condition m := by
  rw [after, ran_branch]
  split <;> rfl

end Collaborators

end Stepwise
