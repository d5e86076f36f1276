import Stepwise.Proofs.Run.Moment

/-!
# The visits of a run

Which steps a run comes to, at any depth, in the order in which it comes to them, each with the
moment at which it does. A branch stands before the steps inside it, and these only if its
condition holds. Laid out like this a run is a trail: it does nothing but what the visited steps
do of their own, one after the other.
-/

namespace Stepwise

/-- A step that a run comes to, the count of branches around it, and the moment. -/
structure Visit (σ : Type) where
  depth : Nat
  step : Step
  moment : Moment σ

namespace Collaborators

variable {σ β : Type} (c : Collaborators σ β)

mutual

/-- The visits of a step with so many branches around it. -/
def visitsOf (depth : Nat) : Step → Moment σ → List (Visit σ)
  | .task h task, m => [⟨depth, .task h task, m⟩]
  | .branch h condition steps, m =>
      ⟨depth, .branch h condition steps, m⟩ ::
        if c.enters h condition m then visits (depth + 1) steps (c.asked h condition m) else []
  | .unknown h type config, m => [⟨depth, .unknown h type config, m⟩]

/-- The visits of steps that are run one after another from a moment. -/
def visits (depth : Nat) : List Step → Moment σ → List (Visit σ)
  | [], _ => []
  | step :: rest, m => visitsOf depth step m ++ visits depth rest (c.after [step] m)

end

/-- What a step does apart from the steps inside it: a task is performed and its outcome settled,
a branch has its condition answered. -/
def own : Step → Moment σ → Moment σ
  | .task h task, m => c.after [.task h task] m
  | .branch h condition _, m => c.asked h condition m
  | .unknown _ _ _, m => m

/-- Visits that follow each other: each step is come to at the moment that the one before left. -/
inductive Trail : Moment σ → List (Visit σ) → Moment σ → Prop
  | nil (m : Moment σ) : Trail m [] m
  | cons {depth : Nat} {step : Step} {m n : Moment σ} {rest : List (Visit σ)}
      (tail : Trail (c.own step m) rest n) : Trail m (⟨depth, step, m⟩ :: rest) n

theorem Trail.append {c : Collaborators σ β} {m n o : Moment σ} {xs ys : List (Visit σ)}
    (hx : Trail c m xs n) (hy : Trail c n ys o) : Trail c m (xs ++ ys) o := by
  induction hx with
  | nil => exact hy
  | cons tail ih => exact .cons (ih hy)

/-- Up to one of its visits a trail leads to the moment of this visit. -/
theorem Trail.upTo {c : Collaborators σ β} {m n : Moment σ} {before rest : List (Visit σ)}
    {v : Visit σ} (h : Trail c m (before ++ v :: rest) n) : Trail c m before v.moment := by
  induction before generalizing m with
  | nil =>
      cases h
      exact .nil _
  | cons first others ih =>
      cases h with
      | cons tail => exact .cons (ih tail)

theorem visits_append (depth : Nat) (xs ys : List Step) (m : Moment σ) :
    c.visits depth (xs ++ ys) m =
      c.visits depth xs m ++ c.visits depth ys (c.after xs m) := by
  induction xs generalizing m with
  | nil => rfl
  | cons step rest ih =>
      rw [List.cons_append, visits, visits, ih, List.append_assoc, ← after_cons]

mutual

theorem visitsOf_trail (depth : Nat) : ∀ (step : Step) (m : Moment σ),
    Trail c m (c.visitsOf depth step m) (c.after [step] m)
  | .task h task, m => by
      rw [visitsOf]
      exact .cons (.nil _)
  | .branch h condition steps, m => by
      rw [visitsOf, after_branch]
      apply Trail.cons
      by_cases hb : c.enters h condition m = true
      · rw [if_pos hb, if_pos hb]
        exact visits_trail (depth + 1) steps (c.asked h condition m)
      · rw [if_neg hb, if_neg hb]
        exact .nil _
  | .unknown h type config, m => by
      rw [visitsOf]
      exact .cons (.nil _)

/-- The visits of a run are a trail from its start to its end. -/
theorem visits_trail (depth : Nat) : ∀ (steps : List Step) (m : Moment σ),
    Trail c m (c.visits depth steps m) (c.after steps m)
  | [], m => by
      rw [visits]
      exact .nil m
  | step :: rest, m => by
      rw [visits, c.after_cons step rest m]
      exact (visitsOf_trail depth step m).append (visits_trail depth rest (c.after [step] m))

end

mutual

theorem depth_le_of_mem_visitsOf (depth : Nat) : ∀ (step : Step) (m : Moment σ),
    ∀ v ∈ c.visitsOf depth step m, depth ≤ v.depth
  | .task h task, m => by simp [visitsOf]
  | .branch h condition steps, m => by
      intro v hv
      rw [visitsOf] at hv
      rcases List.mem_cons.mp hv with rfl | hv
      · exact Nat.le_refl depth
      · by_cases hb : c.enters h condition m = true
        · rw [if_pos hb] at hv
          have hle := depth_le_of_mem_visits (depth + 1) steps (c.asked h condition m) v hv
          omega
        · rw [if_neg hb] at hv
          cases hv
  | .unknown h type config, m => by simp [visitsOf]

theorem depth_le_of_mem_visits (depth : Nat) : ∀ (steps : List Step) (m : Moment σ),
    ∀ v ∈ c.visits depth steps m, depth ≤ v.depth
  | [], m => by simp [visits]
  | step :: rest, m => by
      intro v hv
      rw [visits] at hv
      rcases List.mem_append.mp hv with hv | hv
      · exact depth_le_of_mem_visitsOf depth step m v hv
      · exact depth_le_of_mem_visits depth rest (c.after [step] m) v hv

end

mutual

theorem mem_outline_of_mem_visitsOf (depth : Nat) : ∀ (step : Step) (m : Moment σ),
    ∀ v ∈ c.visitsOf depth step m, (v.depth, v.step) ∈ step.outline depth
  | .task h task, m => by simp [visitsOf, Step.outline]
  | .branch h condition steps, m => by
      intro v hv
      rw [visitsOf] at hv
      rw [Step.outline]
      rcases List.mem_cons.mp hv with rfl | hv
      · exact List.mem_cons_self
      · by_cases hb : c.enters h condition m = true
        · rw [if_pos hb] at hv
          apply List.mem_cons_of_mem
          exact mem_outlineAll_of_mem_visits (depth + 1) steps (c.asked h condition m) v hv
        · rw [if_neg hb] at hv
          cases hv
  | .unknown h type config, m => by simp [visitsOf, Step.outline]

/-- A run comes to no step that is not written in the workflow. -/
theorem mem_outlineAll_of_mem_visits (depth : Nat) : ∀ (steps : List Step) (m : Moment σ),
    ∀ v ∈ c.visits depth steps m, (v.depth, v.step) ∈ Step.outlineAll depth steps
  | [], m => by simp [visits]
  | step :: rest, m => by
      intro v hv
      rw [visits] at hv
      rw [Step.outlineAll]
      apply List.mem_append.mpr
      rcases List.mem_append.mp hv with hv | hv
      · exact Or.inl (mem_outline_of_mem_visitsOf depth step m v hv)
      · exact Or.inr (mem_outlineAll_of_mem_visits depth rest (c.after [step] m) v hv)

end

/-- Of the visits of a step only the first is to the step itself. -/
theorem visitsOf_outermost (depth : Nat) (step : Step) (m : Moment σ) :
    ((c.visitsOf depth step m).filter fun v => v.depth == depth).map Visit.step = [step] := by
  cases step with
  | task h task => simp [visitsOf]
  | branch h condition steps =>
      have hinner : ((if c.enters h condition m then
          c.visits (depth + 1) steps (c.asked h condition m) else []).filter
            fun v => v.depth == depth) = [] := by
        apply List.filter_eq_nil_iff.mpr
        intro v hv
        by_cases hb : c.enters h condition m = true
        · rw [if_pos hb] at hv
          have hle := c.depth_le_of_mem_visits (depth + 1) steps _ v hv
          simp only [beq_iff_eq]
          omega
        · rw [if_neg hb] at hv
          cases hv
      rw [visitsOf, List.filter_cons, hinner]
      simp
  | unknown h type config => simp [visitsOf]

/-- The outermost visits are to the steps of the list, each once and in order. -/
theorem visits_outermost (depth : Nat) (steps : List Step) (m : Moment σ) :
    ((c.visits depth steps m).filter fun v => v.depth == depth).map Visit.step = steps := by
  induction steps generalizing m with
  | nil => rfl
  | cons step rest ih =>
      rw [visits, List.filter_append, List.map_append, visitsOf_outermost, ih]
      rfl

end Collaborators

end Stepwise
