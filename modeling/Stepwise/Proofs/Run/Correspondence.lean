import Stepwise.Run

/-!
# Corresponding collaborators

A run is put together from calls of its collaborators and from nothing else. So whatever relates
computations on two states, and is kept when computations are put one after another, relates the
runs of two collaborators as soon as it relates their single calls.
-/

namespace Stepwise

/-- A relation of computations on two states that is kept under sequencing. -/
structure Correspondence (σ τ : Type) where
  Holds : {α : Type} → StateM σ α → StateM τ α → Prop
  pure : ∀ {α : Type} (a : α), Holds (Pure.pure a) (Pure.pure a)
  bind : ∀ {α γ : Type} {x : StateM σ α} {y : StateM τ α} {f : α → StateM σ γ}
    {g : α → StateM τ γ}, Holds x y → (∀ a, Holds (f a) (g a)) → Holds (x >>= f) (y >>= g)

/-- Leaving the states of a class inside the class is kept under sequencing. -/
def keeping {σ : Type} (Safe : σ → Prop) : Correspondence σ σ where
  Holds x _ := ∀ s, Safe s → Safe (x.run s).2
  pure _ _ hs := hs
  bind hx hf s hs := hf _ _ (hx s hs)

namespace Collaborators

variable {σ τ β : Type}

/-- Two collaborators each call of which corresponds. -/
structure Corresponds (K : Correspondence σ τ) (c : Collaborators σ β)
    (d : Collaborators τ β) : Prop where
  evaluate : ∀ condition pool, K.Holds (c.evaluate condition pool) (d.evaluate condition pool)
  findOne : ∀ id, K.Holds (c.findOne id) (d.findOne id)
  updateOne : ∀ id record, K.Holds (c.updateOne id record) (d.updateOne id record)
  send : ∀ email, K.Holds (c.send email) (d.send email)
  request : ∀ request, K.Holds (c.request request) (d.request request)
  openForm : ∀ path, K.Holds (c.openForm path) (d.openForm path)
  setTextField : ∀ name text, K.Holds (c.setTextField name text) (d.setTextField name text)
  flatten : K.Holds c.flatten d.flatten
  save : K.Holds c.save d.save
  store : ∀ name saved, K.Holds (c.store name saved) (d.store name saved)
  stamp : K.Holds c.stamp d.stamp

namespace Corresponds

variable {K : Correspondence σ τ} {c : Collaborators σ β} {d : Collaborators τ β}

section Tasks

variable (h : Corresponds K c d)
include h

theorem fillFields (entries : List (String × String)) :
    K.Holds (c.fillFields entries) (d.fillFields entries) := by
  induction entries with
  | nil => exact K.pure ()
  | cons entry rest ih => exact K.bind (h.setTextField entry.1 entry.2) fun _ => ih

theorem findRecord (condition : Condition) (pool : Pool) :
    K.Holds (c.findRecord condition pool) (d.findRecord condition pool) := by
  refine K.bind (h.evaluate condition pool) fun answer => ?_
  cases answer with
  | error e => exact K.pure _
  | ok evaluation => exact K.pure _

theorem updateRecord (settings : UpdateRecord) (pool : Pool) :
    K.Holds (c.updateRecord settings pool) (d.updateRecord settings pool) := by
  simp only [Collaborators.updateRecord]
  cases pool.variableAt? settings.target.value.name with
  | none => exact K.pure _
  | some v =>
      refine K.bind (h.findOne v.id) fun found => ?_
      cases found with
      | error e => exact K.pure _
      | ok record =>
          cases record with
          | none => exact K.pure _
          | some record =>
              refine K.bind (h.updateOne v.id _) fun written => ?_
              cases written with
              | error e => exact K.pure _
              | ok _ => exact K.pure _

theorem sendEmail (settings : SendEmail) (pool : Pool) :
    K.Holds (c.sendEmail settings pool) (d.sendEmail settings pool) := by
  simp only [Collaborators.sendEmail]
  cases settings.email.outgoing? pool with
  | none => exact K.pure _
  | some email =>
      refine K.bind (h.send email) fun sent => ?_
      cases sent with
      | error e => exact K.pure _
      | ok _ => exact K.pure _

theorem callApi (call : ApiCall) : K.Holds (c.callApi call) (d.callApi call) := by
  simp only [Collaborators.callApi]
  cases call.request? with
  | none => exact K.pure _
  | some request =>
      refine K.bind (h.request request) fun reply => ?_
      cases reply with
      | error e => exact K.pure _
      | ok response => exact K.pure _

theorem finishForm (settings : CreatePdf) :
    K.Holds (c.finishForm settings) (d.finishForm settings) := by
  refine K.bind h.flatten fun locked => ?_
  cases locked with
  | error e => exact K.pure _
  | ok _ =>
      refine K.bind h.save fun saved => ?_
      cases saved with
      | error e => exact K.pure _
      | ok bytes =>
          refine K.bind h.stamp fun stamp => K.bind (h.store _ bytes) fun stored => ?_
          cases stored with
          | error e => exact K.pure _
          | ok _ => exact K.pure _

theorem createPdf (settings : CreatePdf) (pool : Pool) :
    K.Holds (c.createPdf settings pool) (d.createPdf settings pool) := by
  simp only [Collaborators.createPdf]
  cases Pool.variableNamed? pool settings.source.value with
  | none => exact K.pure _
  | some source =>
      refine K.bind (h.openForm settings.template.path) fun opened => ?_
      cases opened with
      | error e => exact K.pure _
      | ok _ =>
          exact K.bind (h.fillFields (settings.entries source)) fun _ => h.finishForm settings

theorem perform (object : String) (task : Task) (pool : Pool) :
    K.Holds (c.perform object task pool) (d.perform object task pool) := by
  cases task with
  | findRecord condition => exact h.findRecord (condition.within object) pool
  | createPdf settings => exact h.createPdf settings pool
  | sendEmail settings => exact h.sendEmail settings pool
  | apiCall call => exact h.callApi call
  | updateRecord settings => exact h.updateRecord settings pool

end Tasks

end Corresponds

/-- Two collaborators that answer conditions alike, and that perform alike the steps of a class. -/
structure RunAlike (K : Correspondence σ τ) (Allowed : Step → Prop) (c : Collaborators σ β)
    (d : Collaborators τ β) : Prop where
  evaluate : ∀ condition pool, K.Holds (c.evaluate condition pool) (d.evaluate condition pool)
  perform : ∀ heading task pool, Allowed (.task heading task) →
    K.Holds (c.perform heading.object task pool) (d.perform heading.object task pool)

namespace RunAlike

variable {K : Correspondence σ τ} {Allowed : Step → Prop} {c : Collaborators σ β}
  {d : Collaborators τ β}

mutual

theorem runStep (h : RunAlike K Allowed c d) (depth : Nat) : ∀ (step : Step) (p : Progress),
    (∀ line ∈ step.outline depth, Allowed line.2) → K.Holds (c.runStep step p) (d.runStep step p)
  | .task heading task, p, hallowed => by
      rw [Step.outline.eq_def] at hallowed
      have htask : Allowed (.task heading task) := hallowed _ List.mem_cons_self
      simp only [Collaborators.runStep]
      exact K.bind (h.perform heading task p.pool htask) fun outcome => K.pure _
  | .branch heading condition steps, p, hallowed => by
      rw [Step.outline] at hallowed
      have hsteps := (List.forall_mem_cons.mp hallowed).2
      simp only [Collaborators.runStep]
      refine K.bind (h.evaluate _ p.pool) fun answer => ?_
      cases branchHolds answer with
      | true =>
          exact K.bind (runSteps h (depth + 1) steps (.start p.pool) hsteps) fun nested => K.pure _
      | false => exact K.pure _
  | .unknown heading type config, p, _ => by
      simp only [Collaborators.runStep]
      exact K.pure p

theorem runSteps (h : RunAlike K Allowed c d) (depth : Nat) : ∀ (steps : List Step) (p : Progress),
    (∀ line ∈ Step.outlineAll depth steps, Allowed line.2) →
      K.Holds (c.runSteps steps p) (d.runSteps steps p)
  | [], p, _ => by
      simp only [Collaborators.runSteps]
      exact K.pure p
  | step :: rest, p, hallowed => by
      rw [Step.outlineAll] at hallowed
      obtain ⟨hstep, hrest⟩ := List.forall_mem_append.mp hallowed
      simp only [Collaborators.runSteps]
      exact K.bind (runStep h depth step p hstep) fun next => runSteps h depth rest next hrest

end

/-- Runs of a workflow with steps of the class correspond. -/
theorem run (h : RunAlike K Allowed c d) {workflow : Workflow}
    (hallowed : ∀ line ∈ workflow.outline, Allowed line.2) (pool : Pool) :
    K.Holds (c.run workflow pool) (d.run workflow pool) :=
  K.bind (h.runSteps 0 workflow.steps (.start pool) hallowed) fun _ => K.pure _

end RunAlike

namespace Corresponds

variable {K : Correspondence σ τ} {c : Collaborators σ β} {d : Collaborators τ β}

theorem runAlike (h : Corresponds K c d) : RunAlike K (fun _ => True) c d where
  evaluate := h.evaluate
  perform heading task pool _ := h.perform heading.object task pool

/-- Runs with corresponding collaborators correspond. -/
theorem runSteps (h : Corresponds K c d) (steps : List Step) (p : Progress) :
    K.Holds (c.runSteps steps p) (d.runSteps steps p) :=
  h.runAlike.runSteps 0 steps p fun _ _ => trivial

end Corresponds

end Collaborators

end Stepwise
