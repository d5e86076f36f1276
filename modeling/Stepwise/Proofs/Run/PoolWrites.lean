import Stepwise.Proofs.Ordered
import Stepwise.Proofs.Run.Result
import Stepwise.Proofs.Run.Surroundings

/-!
# What a run writes to the pool

A lookup, a message and an update each store one entry under their own name, and no other step
stores anything. So the pool at the end of a run is the pool at its start with the entries of the
visited steps stored one after another. Such an entry is a record, the value `true` or a failure;
the pool itself is never put into a slot.
-/

namespace Stepwise

/-- Whether a step stores its outcome in the pool: a lookup, a message or an update. -/
def Step.storesEntry : Step → Bool
  | .task _ (.findRecord _) => true
  | .task _ (.sendEmail _) => true
  | .task _ (.updateRecord _) => true
  | _ => false

theorem Step.storesEntry_task (h : Heading) (task : Task) :
    (Step.task h task).storesEntry = true ↔ task.kind.policy = .writePool := by
  cases task <;> simp [Step.storesEntry, Task.kind, StepKind.policy]

/-- A record, the value `true`, or a failure. -/
def PoolEntry.IsStored (entry : PoolEntry) : Prop :=
  (∃ v, entry = .var v) ∨ entry = .value (.bool true) ∨ entry = .failed

/-- An outcome that leaves such an entry of its own, and not the pool. -/
def StepOutcome.IsStored (outcome : StepOutcome) : Prop :=
  outcome = .failed ∨ ∃ entry, outcome = .succeeded entry ∧ entry.IsStored

theorem StepOutcome.isStored_var (v : Variable) : (succeeded (.var v)).IsStored :=
  Or.inr ⟨.var v, rfl, Or.inl ⟨v, rfl⟩⟩

theorem StepOutcome.isStored_true : (ofValue (.bool true)).IsStored :=
  Or.inr ⟨.value (.bool true), rfl, Or.inr (Or.inl rfl)⟩

/-- The entry of such an outcome has nothing to do with the pool. -/
theorem StepOutcome.IsStored.toEntry {outcome : StepOutcome} (h : outcome.IsStored)
    (pool : Pool) :
    (outcome.toEntry pool).IsStored ∧ outcome.toEntry pool = outcome.toEntry [] := by
  rcases h with rfl | ⟨entry, rfl, hentry⟩
  · exact ⟨Or.inr (Or.inr rfl), rfl⟩
  · exact ⟨hentry, rfl⟩

namespace Collaborators

variable {σ β : Type} (c : Collaborators σ β)

theorem findRecord_stored (condition : Condition) (pool : Pool) :
    Gives StepOutcome.IsStored (c.findRecord condition pool) := by
  refine gives_bind _ fun answer => ?_
  cases answer with
  | error e => exact gives_pure (Or.inl rfl)
  | ok evaluation =>
      apply gives_pure
      cases evaluation with
      | record v => exact StepOutcome.isStored_var v
      | truth holds =>
          cases holds with
          | true => exact StepOutcome.isStored_true
          | false => exact Or.inl rfl

theorem sendEmail_stored (settings : SendEmail) (pool : Pool) :
    Gives StepOutcome.IsStored (c.sendEmail settings pool) := by
  unfold sendEmail
  cases settings.email.outgoing? pool with
  | none => exact gives_pure (Or.inl rfl)
  | some email =>
      refine gives_bind _ fun sent => ?_
      cases sent with
      | error e => exact gives_pure (Or.inl rfl)
      | ok _ => exact gives_pure StepOutcome.isStored_true

theorem updateRecord_stored (settings : UpdateRecord) (pool : Pool) :
    Gives StepOutcome.IsStored (c.updateRecord settings pool) := by
  unfold updateRecord
  cases pool.variableAt? settings.target.value.name with
  | none => exact gives_pure (Or.inl rfl)
  | some v =>
      refine gives_bind _ fun found => ?_
      cases found with
      | error e => exact gives_pure (Or.inl rfl)
      | ok record =>
          cases record with
          | none => exact gives_pure (Or.inl rfl)
          | some record =>
              refine gives_bind _ fun written => ?_
              cases written with
              | error e => exact gives_pure (Or.inl rfl)
              | ok _ => exact gives_pure (StepOutcome.isStored_var _)

/-- A task that stores its outcome ends in a record, in `true` or in a failure. -/
theorem performed_stored {h : Heading} {task : Task}
    (hs : (Step.task h task).storesEntry = true) (m : Moment σ) :
    (c.performed h task m).1.IsStored := by
  cases task with
  | findRecord condition => exact c.findRecord_stored _ m.pool m.state
  | sendEmail settings => exact c.sendEmail_stored settings m.pool m.state
  | updateRecord settings => exact c.updateRecord_stored settings m.pool m.state
  | apiCall call => cases hs
  | createPdf settings => cases hs

/-! ## What one step writes -/

/-- The name and the entry that a visited step stores in the pool, if it stores one. -/
def write? (v : Visit σ) : Option (String × PoolEntry) :=
  match v.step with
  | .task h task =>
      if v.step.storesEntry then
        some (h.name, (c.performed h task v.moment).1.toEntry v.moment.pool)
      else none
  | _ => none

theorem write?_task (depth : Nat) (h : Heading) (task : Task) (m : Moment σ) :
    c.write? ⟨depth, .task h task, m⟩ =
      if (Step.task h task).storesEntry then
        some (h.name, (c.performed h task m).1.toEntry m.pool)
      else none := rfl

/-- What visits store in the pool, in order. -/
def writes (visits : List (Visit σ)) : List (String × PoolEntry) :=
  visits.filterMap c.write?

/-- A step that stores no entry leaves the pool as it is. -/
theorem own_pool_of_not_stores {step : Step} (hs : step.storesEntry = false) (m : Moment σ) :
    (c.own step m).pool = m.pool := by
  cases step with
  | task h task =>
      rw [own, after, ran_task]
      cases task with
      | apiCall call => rfl
      | createPdf settings => rfl
      | findRecord condition => cases hs
      | sendEmail settings => cases hs
      | updateRecord settings => cases hs
  | branch h condition steps => rfl
  | unknown h type config => rfl

theorem own_pool (depth : Nat) (step : Step) (m : Moment σ) :
    (c.own step m).pool = m.pool.setAll (c.write? ⟨depth, step, m⟩).toList := by
  cases step with
  | task h task =>
      by_cases hs : (Step.task h task).storesEntry = true
      · have hpolicy := (Step.storesEntry_task h task).mp hs
        rw [own, after, ran_task, write?_task, if_pos hs, hpolicy]
        rfl
      · rw [c.own_pool_of_not_stores (Bool.eq_false_iff.mpr hs), write?_task, if_neg hs]
        rfl
  | branch h condition steps => rfl
  | unknown h type config => rfl

theorem isStored_of_mem_writes {visits : List (Visit σ)} {write : String × PoolEntry}
    (h : write ∈ c.writes visits) : write.2.IsStored := by
  obtain ⟨⟨depth, step, m⟩, -, hwrite⟩ := List.mem_filterMap.mp h
  cases step with
  | task heading task =>
      by_cases hs : (Step.task heading task).storesEntry = true
      · rw [write?_task, if_pos hs] at hwrite
        rw [← Option.some.inj hwrite]
        exact ((c.performed_stored hs m).toEntry m.pool).1
      · rw [write?_task, if_neg hs] at hwrite
        cases hwrite
  | branch heading condition steps => cases hwrite
  | unknown heading type config => cases hwrite

/-! ## What a run writes -/

theorem trail_pool {m n : Moment σ} {vs : List (Visit σ)} (htrail : Trail c m vs n) :
    n.pool = m.pool.setAll (c.writes vs) := by
  induction htrail with
  | nil m => rfl
  | @cons depth step m n rest tail ih =>
      have hwrites : c.writes (⟨depth, step, m⟩ :: rest) =
          (c.write? ⟨depth, step, m⟩).toList ++ c.writes rest := by
        rw [writes, List.filterMap_cons]
        cases c.write? ⟨depth, step, m⟩ <;> rfl
      rw [ih, hwrites, Ordered.setAll_append, ← own_pool]

/-- The pool at the end of a run is the pool at its start with the entries of the lookups, messages
and updates that the run came to, at any depth, stored in order under the names of their steps. So
no name is lost and none changes its place, new names follow in the order of their first write, a
name that was written holds the last entry written to it, and any other name what it held before.
A written entry is a record, the value `true` or a failure; the other steps write nothing. -/
theorem pool_after_run (workflow : Workflow) (pool : Pool) (s : σ) :
    let final := ((c.run workflow pool).run s).1.2
    let visits := c.visits 0 workflow.steps ⟨pool, s⟩
    let writes := c.writes visits
    final = pool.setAll writes ∧
    final.keys =
      pool.keys ++ ((writes.map Prod.fst).filter (· ∉ pool.keys)).eraseDups ∧
    (∀ before key entry after, writes = before ++ (key, entry) :: after →
      key ∉ after.map Prod.fst → final.find? key = some entry) ∧
    (∀ key, key ∉ writes.map Prod.fst → final.find? key = pool.find? key) ∧
    (∀ write ∈ writes, write.2.IsStored) ∧
    ∀ v ∈ visits, v.step.storesEntry = false → (c.own v.step v.moment).pool = v.moment.pool := by
  intro final visits writes
  have hfinal : final = pool.setAll writes :=
    c.trail_pool (c.visits_trail 0 workflow.steps ⟨pool, s⟩)
  refine ⟨hfinal, ?_, ?_, ?_, ?_, ?_⟩
  · rw [hfinal, Ordered.keys_setAll]
  · intro before key entry after hwrites hafter
    rw [hfinal, hwrites]
    exact Ordered.find?_setAll_of_last pool before key entry hafter
  · intro key hkey
    rw [hfinal]
    exact Ordered.find?_setAll_of_not_mem pool hkey
  · intro write hwrite
    exact c.isStored_of_mem_writes hwrite
  · intro v _ hstores
    exact c.own_pool_of_not_stores hstores v.moment

/-- A lookup whose entry an update with the same name replaces, a message inside a branch that is
named like an entry that was there, and a call that writes nothing. -/
theorem colliding_names_keep_their_places :
    let outside : Outside Unit Unit :=
      { send := fun _ => pure (.ok ()), request := fun _ => pure (.ok ⟨200, .str "reply"⟩)
        openForm := fun _ => pure (.ok ()), setTextField := fun _ _ => pure (.ok ())
        flatten := pure (.ok ()), save := pure (.ok ()), store := fun _ _ => pure (.ok ())
        stamp := pure "0" }
    let c := searching .memory outside
    let heading := fun name => (⟨name, name, ""⟩ : Heading)
    let copy : PoolEntry := .var ⟨"1", "b", "o", []⟩
    let pool : Pool := [("a", .value .null), ("b", copy)]
    let steps : List Step :=
      [.task (heading "c") (.findRecord .always),
        .branch (heading "if") .always
          [.task (heading "a") (.sendEmail ⟨⟨⟨.literal, .str "a@b.c"⟩, none, none⟩⟩)],
        .task (heading "c") (.updateRecord ⟨⟨none, ⟨"b", none⟩⟩, []⟩),
        .task (heading "d") (.apiCall ⟨⟨"http://a", .get, []⟩, []⟩)]
    let writes := c.writes (c.visits 0 steps ⟨pool, ([], ())⟩)
    let final := ((c.run ⟨"w", none, none, steps⟩ pool).run ([], ())).1.2
    writes = [("c", .value (.bool true)), ("a", .value (.bool true)), ("c", .failed)] ∧
      final.keys = ["a", "b", "c"] ∧ final.find? "a" = some (.value (.bool true)) ∧
      final.find? "b" = some copy ∧ final.find? "c" = some .failed := by
  intro outside c heading copy pool steps writes final
  have hwrites : writes =
    [("c", .value (.bool true)), ("a", .value (.bool true)), ("c", .failed)] := rfl
  obtain ⟨-, hkeys, hlast, hother, -, -⟩ :=
    c.pool_after_run ⟨"w", none, none, steps⟩ pool ([], ())
  refine ⟨hwrites, ?_, ?_, ?_, ?_⟩
  · exact hkeys.trans (by decide)
  · exact hlast [("c", .value (.bool true))] "a" _ [("c", .failed)] hwrites (by decide)
  · exact hother "b" (by rw [show c.writes _ = _ from hwrites]; decide)
  · exact hlast [("c", .value (.bool true)), ("a", .value (.bool true))] "c" _ [] hwrites
      (by decide)

end Collaborators

end Stepwise
