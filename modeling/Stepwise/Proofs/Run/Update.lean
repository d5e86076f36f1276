import Stepwise.Proofs.RecordTable
import Stepwise.Proofs.Run.Moment
import Stepwise.Proofs.Written.Workflow

/-!
# An update is a read and a write

An update makes two calls to the store: it reads the stored record, and it writes the record back
with the assignments. Between the two it holds a copy, and nothing keeps others from the store. The
values that it assigns come from the workflow, and those of a workflow that was decoded have
distinct names.
-/

namespace Stepwise

open Json (IsNormal)

/-! ## The values that are assigned -/

/-- Every value that the step assigns belongs to a class. -/
def Step.AssignsOnly (N : Json → Prop) : Step → Prop
  | .task _ (.updateRecord settings) => ∀ a ∈ settings.assignments, N a.2
  | _ => True

/-- Every value that a step of the workflow assigns, at any depth, belongs to a class. -/
def Workflow.AssignsOnly (N : Json → Prop) (w : Workflow) : Prop :=
  ∀ line ∈ w.outline, line.2.AssignsOnly N

theorem Step.assignsOnly_task {h : Heading} {task : Task}
    (hnormal : (Step.task h task).toJson.IsNormal) : (Step.task h task).AssignsOnly IsNormal := by
  cases task with
  | updateRecord settings =>
      have hconfig : settings.toJson.IsNormal := by
        simp [Step.toJson, Step.written, Task.config] at hnormal
        exact hnormal.2
      have hfields : ∀ a ∈ settings.fields, a.value.IsNormal := by
        simp [UpdateRecord.toJson, FieldAssignment.toJson] at hconfig
        exact fun a ha => (hconfig.2.2 a ha).2
      exact List.forall_mem_map.mpr hfields
  | findRecord condition => trivial
  | createPdf settings => trivial
  | sendEmail settings => trivial
  | apiCall call => trivial

mutual

theorem Step.assignsOnly_outline (depth : Nat) : ∀ step : Step, step.toJson.IsNormal →
    ∀ line ∈ step.outline depth, line.2.AssignsOnly IsNormal
  | .task h _, hnormal => by
      intro line hline
      rw [Step.outline.eq_def] at hline
      obtain rfl := List.mem_singleton.mp hline
      exact Step.assignsOnly_task hnormal
  | .branch h condition steps, hnormal => by
      intro line hline
      have hsteps : ∀ s ∈ steps, s.toJson.IsNormal := by
        simp [Step.toJson, Step.written, Step.toJsonAll_eq_map] at hnormal
        exact hnormal.2.2.2
      rw [Step.outline] at hline
      rcases List.mem_cons.mp hline with rfl | hline
      · trivial
      · exact Step.assignsOnly_outlineAll (depth + 1) steps hsteps line hline
  | .unknown h type config, _ => by
      intro line hline
      rw [Step.outline.eq_def] at hline
      obtain rfl := List.mem_singleton.mp hline
      trivial

/-- Steps that are written with distinct names assign values with distinct names. -/
theorem Step.assignsOnly_outlineAll (depth : Nat) : ∀ steps : List Step,
    (∀ s ∈ steps, s.toJson.IsNormal) →
    ∀ line ∈ Step.outlineAll depth steps, line.2.AssignsOnly IsNormal
  | [], _ => nofun
  | step :: rest, hnormal => by
      obtain ⟨hstep, hrest⟩ := List.forall_mem_cons.mp hnormal
      intro line hline
      rw [Step.outlineAll] at hline
      rcases List.mem_append.mp hline with hline | hline
      · exact Step.assignsOnly_outline depth step hstep line hline
      · exact Step.assignsOnly_outlineAll depth rest hrest line hline

end

/-- A workflow that was decoded from any value assigns only values with distinct names. -/
theorem Workflow.assignsOnly_of_decode {v : Json} {w : Workflow} (h : decode v = .ok w) :
    w.AssignsOnly IsNormal := by
  have hsteps := Workflow.yields_decode v w trivial h
  exact Step.assignsOnly_outlineAll 0 w.steps fun s hs => (hsteps s hs).isNormal

/-! ## The calls of an update -/

/-- How far an update has come: it is still to read the stored record, it holds a copy, or it has
ended. -/
inductive UpdatePhase where
  | unread
  | holding (record : Variable)
  | ended (outcome : StepOutcome)

/-- What the update ends in; an update that has not ended has not succeeded. -/
def UpdatePhase.outcome : UpdatePhase → StepOutcome
  | ended outcome => outcome
  | unread => .failed
  | holding _ => .failed

namespace Collaborators

variable {σ β : Type} (c : Collaborators σ β)

/-- The next call to the store of an update of the record with an identifier. -/
def advance (settings : UpdateRecord) (id : String) : UpdatePhase → StateM σ UpdatePhase
  | .unread => do
      match ← c.findOne id with
      | .error _ => return .ended .failed
      | .ok none => return .ended .failed
      | .ok (some record) => return .holding record
  | .holding record => do
      let updated := record.withFields settings.assignments
      match ← c.updateOne id updated with
      | .error _ => return .ended .failed
      | .ok () => return .ended (.succeeded (.var updated))
  | .ended outcome => return .ended outcome

theorem advance_ended (settings : UpdateRecord) (id : String) (outcome : StepOutcome) :
    c.advance settings id (.ended outcome) = pure (.ended outcome) := rfl

/-- An update whose target is a variable makes its two calls one after the other. -/
theorem updateRecord_eq_advance (settings : UpdateRecord) (pool : Pool) :
    c.updateRecord settings pool =
      match pool.variableAt? settings.target.value.name with
      | none => pure .failed
      | some v => do
          let read ← c.advance settings v.id .unread
          let written ← c.advance settings v.id read
          return written.outcome := by
  rw [updateRecord]
  cases pool.variableAt? settings.target.value.name with
  | none => rfl
  | some v =>
      apply StateT.ext
      intro s
      simp only [run_bind, advance, UpdateRecord.applyTo_eq]
      cases ((c.findOne v.id).run s).1 with
      | error e => rfl
      | ok found =>
          cases found with
          | none => rfl
          | some record =>
              simp only [run_bind, run_pure]
              cases ((c.updateOne v.id (record.withFields settings.assignments)).run
                ((c.findOne v.id).run s).2).1 with
              | error e => rfl
              | ok _ => rfl

end Collaborators

end Stepwise
