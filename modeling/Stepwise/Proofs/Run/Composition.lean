import Stepwise.Proofs.Run.Calls
import Stepwise.Proofs.Run.Visits

/-!
# Runs compose

Running two lists of steps one after the other leads to the same pool, the same state of the
collaborators and the same calls as running them as one list. Only the result needs a look at the
second list: if one of its steps sets a result, the second result counts, and otherwise the first
one, in which the pool is always the pool at the end.
-/

namespace Stepwise

/-- A result brought to the end of a longer run: a pool is replaced by the final one. -/
def RunResult.carriedTo (final : Pool) : RunResult → RunResult
  | .pool _ => .pool final
  | result => result

namespace Progress

/-- The later outcome decides, and an earlier one is only brought to the new pool. -/
theorem result_andThen (p q : Progress) :
    (p.andThen q).result =
      if q.last.isSome then q.result else p.result.carriedTo q.pool := by
  obtain ⟨pool, last⟩ := p
  obtain ⟨final, later⟩ := q
  cases later with
  | some outcome => rfl
  | none =>
      cases last with
      | none => rfl
      | some outcome =>
          cases outcome with
          | succeeded entry => cases entry <;> rfl
          | pool => rfl
          | failed => rfl

end Progress

namespace Collaborators

variable {σ β : Type} (c : Collaborators σ β)

theorem last_ran_singleton (step : Step) (m : Moment σ) :
    (c.ran [step] m).1.last.isSome = step.setsResult := by
  cases step with
  | task h task => rw [ran_task]; cases task <;> rfl
  | branch h condition steps =>
      rw [ran_branch]
      split <;> rfl
  | unknown h type config => rfl

/-- An outcome is remembered exactly when some step of the list sets a result. -/
theorem last_ran (steps : List Step) (m : Moment σ) :
    (c.ran steps m).1.last.isSome = steps.any Step.setsResult := by
  induction steps generalizing m with
  | nil => rfl
  | cons step rest ih =>
      have hran := c.ran_append [step] rest m
      rw [List.singleton_append] at hran
      rw [hran]
      simp only [Progress.andThen, Option.isSome_or, ih, last_ran_singleton, List.any_cons]
      exact Bool.or_comm _ _

theorem resultOf_append (xs ys : List Step) (m : Moment σ) :
    c.resultOf (xs ++ ys) m =
      if ys.any Step.setsResult then c.resultOf ys (c.after xs m)
      else (c.resultOf xs m).carriedTo (c.after ys (c.after xs m)).pool := by
  rw [resultOf, ran_append, Progress.result_andThen, last_ran]
  rfl

/-- A list of steps split in two leads to the pool, the state of the collaborators and the calls
of its first part followed by its second part, which starts where the first one ended. Its result
is that of the second part if a step of that part sets one, and otherwise that of the first part
with the final pool in the place of an earlier one. Whatever the collaborators answer, the run is
the trail of its visits, and the outermost of these are its steps, each once and in order. -/
theorem runs_compose (xs ys : List Step) (m : Moment σ) :
    c.after (xs ++ ys) m = c.after ys (c.after xs m) ∧
    c.calls (xs ++ ys) m = c.calls xs m ++ c.calls ys (c.after xs m) ∧
    c.resultOf (xs ++ ys) m =
      (if ys.any Step.setsResult then c.resultOf ys (c.after xs m)
      else (c.resultOf xs m).carriedTo (c.after ys (c.after xs m)).pool) ∧
    c.visits 0 (xs ++ ys) m = c.visits 0 xs m ++ c.visits 0 ys (c.after xs m) ∧
    Trail c m (c.visits 0 (xs ++ ys) m) (c.after (xs ++ ys) m) ∧
    ((c.visits 0 (xs ++ ys) m).filter fun v => v.depth == 0).map Visit.step = xs ++ ys :=
  ⟨c.after_append xs ys m, c.calls_append xs ys m, c.resultOf_append xs ys m,
    c.visits_append 0 xs ys m, c.visits_trail 0 (xs ++ ys) m, c.visits_outermost 0 (xs ++ ys) m⟩

end Collaborators

end Stepwise
