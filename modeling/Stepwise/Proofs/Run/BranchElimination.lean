import Stepwise.Proofs.Run.Calls
import Stepwise.Proofs.Run.Surroundings

/-!
# Branches can be taken apart

A branch that a run comes to can be replaced by its steps if its condition holds there, and taken
out otherwise, without a trace in the pool, in the records or in the calls of what lies outside.
This holds at any place among other steps, also inside further branches. It rests on the answer to
a condition being searched for without a change of the records.
-/

namespace Stepwise

/-- A place among steps: between others, or inside a branch that stands between others. -/
inductive Place where
  | here (pre post : List Step)
  | inside (pre : List Step) (heading : Heading) (condition : Condition) (inner : Place)
      (post : List Step)

namespace Place

/-- The steps with others put at the place. -/
def fill : Place → List Step → List Step
  | here pre post, steps => pre ++ steps ++ post
  | inside pre h condition inner post, steps =>
      pre ++ [.branch h condition (inner.fill steps)] ++ post

variable {σ β : Type}

/-- The moment at which a run comes to the place; none if the condition of a branch around it
does not hold. -/
def reached? (c : Collaborators σ β) : Place → Moment σ → Option (Moment σ)
  | here pre _, m => some (c.after pre m)
  | inside pre h condition inner _, m =>
      if c.enters h condition (c.after pre m) then
        inner.reached? c (c.asked h condition (c.after pre m))
      else none

end Place

namespace Collaborators

section Footprint

variable {σ β : Type} (c : Collaborators σ β)

/-- What steps leave behind: the pool and the state of the collaborators, and the calls to the
mailer, to the client of APIs and to the forms. -/
def footprint (steps : List Step) (m : Moment σ) : Moment σ × List (RunCall β) :=
  (c.after steps m, (c.calls steps m).filter RunCall.isOutward)

theorem footprint_append (xs ys : List Step) (m : Moment σ) :
    c.footprint (xs ++ ys) m =
      ((c.footprint ys (c.footprint xs m).1).1,
        (c.footprint xs m).2 ++ (c.footprint ys (c.footprint xs m).1).2) := by
  simp only [footprint, after_append, calls_append, List.filter_append]

theorem footprint_branch (h : Heading) (condition : Condition) (steps : List Step)
    (m : Moment σ) :
    c.footprint [.branch h condition steps] m =
      if c.enters h condition m then c.footprint steps (c.asked h condition m)
      else (c.asked h condition m, []) := by
  rw [footprint, after_branch, calls_branch, List.filter_cons_of_neg (by simp [RunCall.isOutward])]
  split <;> rfl

/-- Steps that leave the same behind where a run comes to their place can stand for each other. -/
theorem footprint_fill {xs ys : List Step} (place : Place) (m : Moment σ)
    (h : ∀ n, place.reached? c m = some n → c.footprint xs n = c.footprint ys n) :
    c.footprint (place.fill xs) m = c.footprint (place.fill ys) m := by
  induction place generalizing m with
  | here pre post =>
      have heq := h (c.after pre m) rfl
      simp only [Place.fill, footprint_append]
      rw [show (c.footprint pre m).1 = c.after pre m from rfl, heq]
  | inside pre heading condition inner post ih =>
      have hbranch : c.footprint [.branch heading condition (inner.fill xs)] (c.after pre m) =
          c.footprint [.branch heading condition (inner.fill ys)] (c.after pre m) := by
        rw [footprint_branch, footprint_branch]
        by_cases hb : c.enters heading condition (c.after pre m) = true
        · rw [if_pos hb, if_pos hb]
          apply ih
          intro n hn
          exact h n (by rw [Place.reached?, if_pos hb, hn])
        · rw [if_neg hb, if_neg hb]
      simp only [Place.fill, footprint_append]
      rw [show (c.footprint pre m).1 = c.after pre m from rfl, hbranch]

end Footprint

variable {ρ ε β : Type} (store : RecordStore ρ) (outside : Outside ε β)

theorem asked_searching (h : Heading) (condition : Condition) (m : Moment (ρ × ε)) :
    (searching store outside).asked h condition m = m := by
  rw [asked, judged, searching_evaluate]

theorem enters_searching (h : Heading) (condition : Condition) (m : Moment (ρ × ε)) :
    (searching store outside).enters h condition m =
      branchHolds (store.answer (condition.within h.object) m.pool m.state.1) := by
  rw [enters, judged, searching_evaluate]

/-- Where a run comes to a branch, the branch leaves behind what its steps do if the condition
holds, and nothing otherwise. -/
theorem footprint_fill_branch (place : Place) (h : Heading) (condition : Condition)
    (steps : List Step) {m n : Moment (ρ × ε)}
    (hreached : place.reached? (searching store outside) m = some n) :
    (searching store outside).footprint (place.fill [.branch h condition steps]) m =
      (searching store outside).footprint (place.fill
        (if branchHolds (store.answer (condition.within h.object) n.pool n.state.1)
          then steps else [])) m := by
  apply footprint_fill
  intro n' hn'
  obtain rfl : n = n' := Option.some.inj (hreached.symm.trans hn')
  rw [footprint_branch, enters_searching, asked_searching]
  split <;> rfl

/-- With conditions searched for in the records, a branch among other steps leaves behind what its
steps do if its condition holds for the pool and the records that the steps before it left, and
nothing if the condition does not hold or does not evaluate. The same is true inside further
branches for the pool and the records at which the run comes to the branch, and a branch that the
run does not come to can be replaced by anything. -/
theorem branch_eliminated (h : Heading) (condition : Condition) (steps : List Step)
    (m : Moment (ρ × ε)) :
    let c := searching store outside
    let remains := fun n : Moment (ρ × ε) =>
      match store.answer (condition.within h.object) n.pool n.state.1 with
      | .ok evaluation => if evaluation.truthy = true then steps else []
      | .error _ => []
    (∀ pre post, c.footprint (pre ++ [.branch h condition steps] ++ post) m =
      c.footprint (pre ++ remains (c.after pre m) ++ post) m) ∧
    ∀ place : Place,
      match place.reached? c m with
      | some n =>
          c.footprint (place.fill [.branch h condition steps]) m =
            c.footprint (place.fill (remains n)) m
      | none =>
          ∀ others, c.footprint (place.fill [.branch h condition steps]) m =
            c.footprint (place.fill others) m := by
  intro c remains
  have hremains (n : Moment (ρ × ε)) : remains n =
      if branchHolds (store.answer (condition.within h.object) n.pool n.state.1) then steps
      else [] := by
    dsimp only [remains]
    cases store.answer (condition.within h.object) n.pool n.state.1 <;> rfl
  simp only [hremains]
  refine ⟨fun pre post => ?_, fun place => ?_⟩
  · exact footprint_fill_branch store outside (.here pre post) h condition steps rfl
  · cases hreached : place.reached? c m with
    | none =>
        intro others
        exact c.footprint_fill place m fun n hn => by rw [hreached] at hn; cases hn
    | some n => exact footprint_fill_branch store outside place h condition steps hreached

end Collaborators

end Stepwise
