import Stepwise.Proofs.Run.Correspondence
import Stepwise.Proofs.Run.Visits

/-!
# The calls of a run

Every call of a collaborator, with what is passed to it. The calls of a run are read off a run
with collaborators that do what the given ones do and note each call. Notes of any kind change
nothing else, and those of a list of steps are those of its parts one after the other; laid out
they are the notes of the steps that the run comes to.
-/

namespace Stepwise

/-- A call of a collaborator with what is passed to it; saved forms are in `β`. -/
inductive RunCall (β : Type) where
  | evaluate (condition : Condition) (pool : Pool)
  | findOne (id : String)
  | updateOne (id : String) (record : Variable)
  | send (email : OutgoingEmail)
  | request (request : HttpRequest)
  | openForm (path : String)
  | setTextField (name text : String)
  | flatten
  | save
  | store (name : String) (saved : β)

/-- Whether a call goes to the mailer, to the client of APIs or to the forms, and not to the
records or the evaluation of conditions. -/
def RunCall.isOutward {β : Type} : RunCall β → Bool
  | evaluate _ _ => false
  | findOne _ => false
  | updateOne _ _ => false
  | _ => true

section Logging

variable {σ κ : Type}

/-- Note a call and make it. -/
def noting {α : Type} (call : κ) (x : StateM σ α) : StateM (σ × List κ) α := fun s =>
  (((x.run s.1).1), ((x.run s.1).2, s.2 ++ [call]))

/-- Make a call without a note. -/
def unnoted {α : Type} (x : StateM σ α) : StateM (σ × List κ) α := fun s =>
  (((x.run s.1).1), ((x.run s.1).2, s.2))

theorem run_noting {α : Type} (call : κ) (x : StateM σ α) (s : σ) (log : List κ) :
    (noting call x).run (s, log) = ((x.run s).1, ((x.run s).2, log ++ [call])) := rfl

theorem run_unnoted {α : Type} (x : StateM σ α) (s : σ) (log : List κ) :
    (unnoted x).run (s, log) = ((x.run s).1, ((x.run s).2, log)) := rfl

/-- The first computation does what the second one does, and adds notes that do not depend on
those made before. -/
def NotesOf {α : Type} (loud : StateM (σ × List κ) α) (quiet : StateM σ α) : Prop :=
  ∃ notes : σ → List κ, ∀ s log,
    loud.run (s, log) = ((quiet.run s).1, ((quiet.run s).2, log ++ notes s))

theorem notesOf_noting {α : Type} (call : κ) (x : StateM σ α) : NotesOf (noting call x) x :=
  ⟨fun _ => [call], fun _ _ => rfl⟩

theorem notesOf_unnoted {α : Type} (x : StateM σ α) :
    NotesOf (unnoted x : StateM (σ × List κ) α) x :=
  ⟨fun _ => [], fun _ log => by simp only [List.append_nil]; rfl⟩

theorem notesOf_bind {α γ : Type} {x : StateM (σ × List κ) α} {y : StateM σ α}
    {f : α → StateM (σ × List κ) γ} {g : α → StateM σ γ} (hx : NotesOf x y)
    (hf : ∀ a, NotesOf (f a) (g a)) : NotesOf (x >>= f) (y >>= g) := by
  obtain ⟨first, hfirst⟩ := hx
  refine ⟨fun s => first s ++ (hf (y.run s).1).choose (y.run s).2, fun s log => ?_⟩
  rw [run_bind, run_bind, hfirst]
  exact ((hf (y.run s).1).choose_spec (y.run s).2 (log ++ first s)).trans
    (by rw [List.append_assoc])

/-- Doing the same without a note is a correspondence. -/
def silently (σ κ : Type) : Correspondence (σ × List κ) σ where
  Holds loud quiet := ∀ s log, loud.run (s, log) = ((quiet.run s).1, ((quiet.run s).2, log))
  pure _ _ _ := rfl
  bind hx hf s log := by rw [run_bind, run_bind, hx, hf]

/-- Taking notes is a correspondence. -/
def noteTaking (σ κ : Type) : Correspondence (σ × List κ) σ where
  Holds := NotesOf
  pure a := ⟨fun _ => [], fun _ log => by simp only [List.append_nil]; rfl⟩
  bind := notesOf_bind

end Logging

namespace Collaborators

/-! ## Notes of a run -/

section Notes

variable {σ κ β : Type}

/-- The notes that steps make when they are run from a moment, in order. -/
def notes (d : Collaborators (σ × List κ) β) (steps : List Step) (m : Moment σ) : List κ :=
  (d.ran steps ⟨m.pool, (m.state, [])⟩).2.2

/-- The notes that a step makes of its own, apart from the steps inside it. -/
def ownNotes (d : Collaborators (σ × List κ) β) (step : Step) (m : Moment σ) : List κ :=
  (d.own step ⟨m.pool, (m.state, [])⟩).state.2

variable {d : Collaborators (σ × List κ) β} {c : Collaborators σ β}
  (hd : Corresponds (noteTaking σ κ) d c)
include hd

/-- A run that takes notes is the run itself, and its notes stand behind earlier ones. -/
theorem Corresponds.ran_noted (steps : List Step) (m : Moment σ) (log : List κ) :
    d.ran steps ⟨m.pool, (m.state, log)⟩ =
      ((c.ran steps m).1, ((c.ran steps m).2, log ++ d.notes steps m)) := by
  obtain ⟨made, hmade⟩ := hd.runSteps steps (.start m.pool)
  have hnotes : d.notes steps m = made m.state := by
    rw [notes, ran, hmade]
    rfl
  rw [hnotes]
  exact hmade m.state log

theorem Corresponds.after_noted (steps : List Step) (m : Moment σ) (log : List κ) :
    d.after steps ⟨m.pool, (m.state, log)⟩ =
      ⟨(c.after steps m).pool, ((c.after steps m).state, log ++ d.notes steps m)⟩ := by
  rw [after, hd.ran_noted]
  rfl

/-- A workflow is run with its notes. -/
theorem Corresponds.run_noted (workflow : Workflow) (pool : Pool) (s : σ) :
    (d.run workflow pool).run (s, []) =
      (((c.run workflow pool).run s).1,
        (((c.run workflow pool).run s).2, d.notes workflow.steps ⟨pool, s⟩)) := by
  have hran : d.ran workflow.steps ⟨pool, (s, [])⟩ = _ := hd.ran_noted workflow.steps ⟨pool, s⟩ []
  rw [run_eq, resultOf, after, hran]
  rfl

/-- The notes of two lists of steps are those of the first and then those of the second. -/
theorem Corresponds.notes_append (xs ys : List Step) (m : Moment σ) :
    d.notes (xs ++ ys) m = d.notes xs m ++ d.notes ys (c.after xs m) := by
  change (d.after (xs ++ ys) ⟨m.pool, (m.state, [])⟩).state.2 = _
  rw [after_append, hd.after_noted, hd.after_noted, List.nil_append]

/-- A branch makes the notes of its condition, and then those of its steps if it holds. -/
theorem Corresponds.notes_branch (h : Heading) (condition : Condition) (steps : List Step)
    (m : Moment σ) :
    d.notes [.branch h condition steps] m =
      d.ownNotes (.branch h condition steps) m ++
        (if c.enters h condition m then d.notes steps (c.asked h condition m) else []) := by
  obtain ⟨made, hmade⟩ := hd.evaluate (condition.within h.object) m.pool
  have hjudged : d.judged h condition ⟨m.pool, (m.state, [])⟩ =
      ((c.judged h condition m).1, ((c.judged h condition m).2, made m.state)) :=
    hmade m.state []
  have henters : d.enters h condition ⟨m.pool, (m.state, [])⟩ = c.enters h condition m := by
    rw [enters, hjudged, enters]
  have hasked : d.asked h condition ⟨m.pool, (m.state, [])⟩ =
      ⟨(c.asked h condition m).pool, ((c.asked h condition m).state, made m.state)⟩ := by
    rw [asked, hjudged, asked]
  have hown : d.ownNotes (.branch h condition steps) m = made m.state := by
    rw [ownNotes, own, hasked]
  change (d.after [.branch h condition steps] ⟨m.pool, (m.state, [])⟩).state.2 = _
  rw [after_branch, henters, hasked, hown]
  by_cases hb : c.enters h condition m = true
  · rw [if_pos hb, if_pos hb, hd.after_noted]
  · rw [if_neg hb, if_neg hb, List.append_nil]

mutual

theorem Corresponds.notes_visitsOf (depth : Nat) : ∀ (step : Step) (m : Moment σ),
    d.notes [step] m = (c.visitsOf depth step m).flatMap fun v => d.ownNotes v.step v.moment
  | .task h task, m => by
      rw [visitsOf, List.flatMap_singleton]
      rfl
  | .branch h condition steps, m => by
      rw [visitsOf, List.flatMap_cons, hd.notes_branch]
      by_cases hb : c.enters h condition m = true
      · rw [if_pos hb, if_pos hb, Corresponds.notes_visits (depth + 1) steps]
      · rw [if_neg hb, if_neg hb, List.flatMap_nil]
  | .unknown h type config, m => by
      rw [visitsOf, List.flatMap_singleton]
      rfl

/-- The notes of a run are those of the steps it comes to, one after the other. -/
theorem Corresponds.notes_visits (depth : Nat) : ∀ (steps : List Step) (m : Moment σ),
    d.notes steps m = (c.visits depth steps m).flatMap fun v => d.ownNotes v.step v.moment
  | [], m => rfl
  | step :: rest, m => by
      have hcons : d.notes (step :: rest) m = d.notes [step] m ++ d.notes rest (c.after [step] m) :=
        hd.notes_append [step] rest m
      rw [visits, List.flatMap_append, hcons, Corresponds.notes_visitsOf depth step,
        Corresponds.notes_visits depth rest]

end

end Notes

/-! ## The calls -/

variable {σ β : Type}

/-- The same collaborators, with a note of every call in the order of the calls. The clock is
read without a note. -/
def logged (c : Collaborators σ β) : Collaborators (σ × List (RunCall β)) β where
  evaluate condition pool := noting (.evaluate condition pool) (c.evaluate condition pool)
  findOne id := noting (.findOne id) (c.findOne id)
  updateOne id record := noting (.updateOne id record) (c.updateOne id record)
  send email := noting (.send email) (c.send email)
  request request := noting (.request request) (c.request request)
  openForm path := noting (.openForm path) (c.openForm path)
  setTextField name text := noting (.setTextField name text) (c.setTextField name text)
  flatten := noting .flatten c.flatten
  save := noting .save c.save
  store name saved := noting (.store name saved) (c.store name saved)
  stamp := unnoted c.stamp

theorem logged_corresponds (c : Collaborators σ β) :
    Corresponds (noteTaking σ (RunCall β)) c.logged c where
  evaluate _ _ := notesOf_noting _ _
  findOne _ := notesOf_noting _ _
  updateOne _ _ := notesOf_noting _ _
  send _ := notesOf_noting _ _
  request _ := notesOf_noting _ _
  openForm _ := notesOf_noting _ _
  setTextField _ _ := notesOf_noting _ _
  flatten := notesOf_noting _ _
  save := notesOf_noting _ _
  store _ _ := notesOf_noting _ _
  stamp := notesOf_unnoted _

variable (c : Collaborators σ β)

/-- The calls that steps make when they are run from a moment, in order. -/
def calls (steps : List Step) (m : Moment σ) : List (RunCall β) :=
  (c.logged.ran steps ⟨m.pool, (m.state, [])⟩).2.2

/-- The calls of two lists of steps are those of the first and then those of the second. -/
theorem calls_append (xs ys : List Step) (m : Moment σ) :
    c.calls (xs ++ ys) m = c.calls xs m ++ c.calls ys (c.after xs m) :=
  c.logged_corresponds.notes_append xs ys m

/-- A branch asks for its condition, and then makes the calls of its steps if it holds. -/
theorem calls_branch (h : Heading) (condition : Condition) (steps : List Step) (m : Moment σ) :
    c.calls [.branch h condition steps] m =
      .evaluate (condition.within h.object) m.pool ::
        (if c.enters h condition m then c.calls steps (c.asked h condition m) else []) :=
  c.logged_corresponds.notes_branch h condition steps m

theorem calls_task (h : Heading) (task : Task) (m : Moment σ) :
    c.calls [.task h task] m = (c.logged.performed h task ⟨m.pool, (m.state, [])⟩).2.2 := rfl

/-- A task ends in the same outcome when its calls are noted. -/
theorem performed_logged (h : Heading) (task : Task) (m : Moment σ) :
    (c.performed h task m).1 = (c.logged.performed h task ⟨m.pool, (m.state, [])⟩).1 := by
  obtain ⟨made, hmade⟩ := c.logged_corresponds.perform h.object task m.pool
  rw [performed, performed, hmade]

/-! ## No notes -/

/-- The same collaborators beside notes that they do not make. -/
def unnoted {κ : Type} (c : Collaborators σ β) : Collaborators (σ × List κ) β where
  evaluate condition pool := Stepwise.unnoted (c.evaluate condition pool)
  findOne id := Stepwise.unnoted (c.findOne id)
  updateOne id record := Stepwise.unnoted (c.updateOne id record)
  send email := Stepwise.unnoted (c.send email)
  request request := Stepwise.unnoted (c.request request)
  openForm path := Stepwise.unnoted (c.openForm path)
  setTextField name text := Stepwise.unnoted (c.setTextField name text)
  flatten := Stepwise.unnoted c.flatten
  save := Stepwise.unnoted c.save
  store name saved := Stepwise.unnoted (c.store name saved)
  stamp := Stepwise.unnoted c.stamp

theorem unnoted_corresponds (κ : Type) : Corresponds (silently σ κ) c.unnoted c where
  evaluate _ _ _ _ := rfl
  findOne _ _ _ := rfl
  updateOne _ _ _ _ := rfl
  send _ _ _ := rfl
  request _ _ _ := rfl
  openForm _ _ _ := rfl
  setTextField _ _ _ _ := rfl
  flatten _ _ := rfl
  save _ _ := rfl
  store _ _ _ _ := rfl
  stamp _ _ := rfl

end Collaborators

end Stepwise
