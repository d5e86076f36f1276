import Stepwise.Workflow

/-!
# Outlines and places

A step of a workflow stands at a place: the path of indices that leads to it through the branches
around it. The outline of a workflow goes through these places in their lexicographic order, in
which a branch comes before the steps inside it. So it lists every step once, and the count beside
a step is that of the branches on its path.
-/

namespace Stepwise.Step

theorem mem_outline_self (depth : Nat) (s : Step) : (depth, s) ∈ s.outline depth := by
  cases s <;> simp [outline]

theorem mem_outlineAll_append {depth : Nat} {s : Step} {p : Nat × Step} (h : p ∈ s.outline depth)
    (front back : List Step) : p ∈ outlineAll depth (front ++ s :: back) := by
  induction front with
  | nil => exact List.mem_append_left _ h
  | cons first rest ih => exact List.mem_append_right _ ih

/-- The step at a path: each index but the last one leads into a branch. -/
def stepAt? : List Nat → List Step → Option Step
  | [], _ => none
  | [i], steps => steps[i]?
  | i :: j :: rest, steps =>
      match steps[i]? with
      | some (.branch _ _ inner) => stepAt? (j :: rest) inner
      | _ => none

mutual

/-- The places of a step with an index and of the steps inside it. -/
def places (i : Nat) : Step → List (List Nat × Step)
  | .branch h condition steps =>
      ([i], .branch h condition steps) :: (placesAll 0 steps).map fun p => (i :: p.1, p.2)
  | s => [([i], s)]

/-- The places of a list of steps, the first of which has a given index. -/
def placesAll (i : Nat) : List Step → List (List Nat × Step)
  | [] => []
  | s :: rest => s.places i ++ placesAll (i + 1) rest

end

theorem stepAt?_zero (rest : List Nat) (step : Step) (steps : List Step) :
    stepAt? (0 :: rest) (step :: steps) = stepAt? (0 :: rest) [step] := by
  cases rest <;> rfl

theorem stepAt?_succ (i : Nat) (rest : List Nat) (step : Step) (steps : List Step) :
    stepAt? ((i + 1) :: rest) (step :: steps) = stepAt? (i :: rest) steps := by
  cases rest <;> rfl

/-! ## The places are the paths to steps -/

/-- A step without steps inside it stands at a single place. -/
theorem mem_single_iff {step : Step} (hleaf : ∀ j rest, stepAt? (0 :: j :: rest) [step] = none)
    (i : Nat) (path : List Nat) (s : Step) :
    (path, s) ∈ [([i], step)] ↔ ∃ rest, path = i :: rest ∧ stepAt? (0 :: rest) [step] = some s := by
  rw [List.mem_singleton]
  constructor
  · intro h
    obtain ⟨rfl, rfl⟩ := Prod.mk.inj h
    exact ⟨[], rfl, rfl⟩
  · rintro ⟨rest, rfl, hat⟩
    cases rest with
    | nil => rw [Option.some.inj hat]
    | cons j rest =>
        rw [hleaf] at hat
        cases hat

mutual

theorem mem_places_iff (i : Nat) (path : List Nat) (s : Step) : ∀ step : Step,
    (path, s) ∈ step.places i ↔ ∃ rest, path = i :: rest ∧ stepAt? (0 :: rest) [step] = some s
  | .task h t => by
      rw [places]
      · exact mem_single_iff (fun _ _ => rfl) i path s
      · nofun
  | .unknown h type config => by
      rw [places]
      · exact mem_single_iff (fun _ _ => rfl) i path s
      · nofun
  | .branch h condition steps => by
      rw [places, List.mem_cons, List.mem_map]
      constructor
      · rintro (heq | ⟨⟨inner, step⟩, hmem, heq⟩)
        · obtain ⟨rfl, rfl⟩ := Prod.mk.inj heq
          exact ⟨[], rfl, rfl⟩
        · obtain ⟨rfl, rfl⟩ := Prod.mk.inj heq
          obtain ⟨j, rest, rfl, hat⟩ := (mem_placesAll_iff 0 inner step steps).mp hmem
          rw [Nat.zero_add]
          exact ⟨j :: rest, rfl, hat⟩
      · rintro ⟨rest, rfl, hat⟩
        cases rest with
        | nil => exact Or.inl (by rw [Option.some.inj hat])
        | cons j rest =>
            refine Or.inr ⟨(j :: rest, s), ?_, rfl⟩
            exact (mem_placesAll_iff 0 _ s steps).mpr ⟨j, rest, by rw [Nat.zero_add], hat⟩

theorem mem_placesAll_iff (i : Nat) (path : List Nat) (s : Step) : ∀ steps : List Step,
    (path, s) ∈ placesAll i steps ↔
      ∃ j rest, path = (i + j) :: rest ∧ stepAt? (j :: rest) steps = some s
  | [] => by
      rw [placesAll]
      refine ⟨fun h => absurd h List.not_mem_nil, ?_⟩
      rintro ⟨j, rest, -, hat⟩
      cases rest <;> cases hat
  | step :: steps => by
      rw [placesAll, List.mem_append, mem_places_iff i path s step,
        mem_placesAll_iff (i + 1) path s steps]
      constructor
      · rintro (⟨rest, rfl, hat⟩ | ⟨j, rest, rfl, hat⟩)
        · exact ⟨0, rest, rfl, by rw [stepAt?_zero, hat]⟩
        · exact ⟨j + 1, rest, by rw [Nat.add_assoc, Nat.add_comm 1 j],
            by rw [stepAt?_succ, hat]⟩
      · rintro ⟨j, rest, rfl, hat⟩
        cases j with
        | zero => exact Or.inl ⟨rest, rfl, (stepAt?_zero rest step steps).symm.trans hat⟩
        | succ j => exact Or.inr ⟨j, rest, by rw [Nat.add_assoc, Nat.add_comm 1 j],
            by rw [← hat, stepAt?_succ]⟩

end

/-! ## The order of the places -/

mutual

theorem places_pairwise (i : Nat) : ∀ step : Step,
    ((step.places i).map Prod.fst).Pairwise (· < ·)
  | .task h t => by
      rw [places]
      · exact List.pairwise_singleton _ _
      · nofun
  | .unknown h type config => by
      rw [places]
      · exact List.pairwise_singleton _ _
      · nofun
  | .branch h condition steps => by
      rw [places, List.map_cons, List.map_map, List.pairwise_cons]
      constructor
      · intro path hpath
        obtain ⟨⟨inner, s⟩, hmem, rfl⟩ := List.mem_map.mp hpath
        obtain ⟨j, rest, rfl, -⟩ := (mem_placesAll_iff 0 inner s steps).mp hmem
        exact List.cons_lt_cons_iff.mpr (Or.inr ⟨rfl, List.nil_lt_cons _ _⟩)
      · have hinner := List.pairwise_map.mp (placesAll_pairwise 0 steps)
        refine List.pairwise_map.mpr (hinner.imp ?_)
        intro p q hpq
        exact List.cons_lt_cons_iff.mpr (Or.inr ⟨rfl, hpq⟩)

/-- The places of steps stand in their lexicographic order, so none stands twice. -/
theorem placesAll_pairwise (i : Nat) : ∀ steps : List Step,
    ((placesAll i steps).map Prod.fst).Pairwise (· < ·)
  | [] => by
      rw [placesAll]
      exact List.Pairwise.nil
  | step :: steps => by
      rw [placesAll, List.map_append, List.pairwise_append]
      refine ⟨places_pairwise i step, placesAll_pairwise (i + 1) steps, ?_⟩
      intro first hfirst later hlater
      obtain ⟨⟨_, s⟩, hp, rfl⟩ := List.mem_map.mp hfirst
      obtain ⟨⟨_, t⟩, hq, rfl⟩ := List.mem_map.mp hlater
      obtain ⟨front, rfl, -⟩ := (mem_places_iff i _ s step).mp hp
      obtain ⟨j, back, rfl, -⟩ := (mem_placesAll_iff (i + 1) _ t steps).mp hq
      exact List.cons_lt_cons_iff.mpr (Or.inl (by omega))

end

/-! ## The outline goes through the places -/

mutual

theorem outline_eq (depth i : Nat) : ∀ step : Step,
    step.outline depth = (step.places i).map fun p => (depth + (p.1.length - 1), p.2)
  | .task h t => by
      rw [places, outline]
      · rfl
      · nofun
      · nofun
  | .unknown h type config => by
      rw [places, outline]
      · rfl
      · nofun
      · nofun
  | .branch h condition steps => by
      rw [places, outline, List.map_cons, List.map_map, outlineAll_eq (depth + 1) 0 steps]
      refine congrArg _ (List.map_congr_left fun p hp => ?_)
      obtain ⟨j, rest, hpath, -⟩ := (mem_placesAll_iff 0 p.1 p.2 steps).mp hp
      refine Prod.ext ?_ rfl
      simp only [Function.comp, hpath, List.length_cons]
      omega

/-- An outline goes through the places of the steps and counts the branches on their paths. -/
theorem outlineAll_eq (depth i : Nat) : ∀ steps : List Step,
    outlineAll depth steps = (placesAll i steps).map fun p => (depth + (p.1.length - 1), p.2)
  | [] => by rw [outlineAll, placesAll, List.map_nil]
  | step :: steps => by
      rw [outlineAll, placesAll, List.map_append, outline_eq depth i step,
        outlineAll_eq depth (i + 1) steps]

end

end Stepwise.Step
