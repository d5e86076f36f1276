import Stepwise.Rehearsal
import Stepwise.Store.WorkflowFolder

/-!
# Sessions

A session looks workflows up by name and runs each one against a fresh pool. All runs share the
collaborators, so a later run sees the records that an earlier one has left.
-/

namespace Stepwise

/-- Where workflows are kept. -/
inductive WorkflowKeeping where
  | table (workflows : Ordered Workflow)
  | folder (path : String)

namespace WorkflowKeeping

/-- Each workflow under its name; of two with one name the later wins. -/
def ofList (workflows : List Workflow) : WorkflowKeeping :=
  table (Ordered.ofPairs (workflows.map fun w => (w.name, w)))

/-- All workflows, in order. -/
def list (k : WorkflowKeeping) (files : FileTree) : Except StoreError (List Workflow) :=
  match k with
  | table workflows => .ok workflows.values
  | folder path => WorkflowFolder.list files path

/-- The workflow with a name. -/
def find (k : WorkflowKeeping) (files : FileTree) (name : String) :
    Except StoreError (Option Workflow) :=
  match k with
  | table workflows => .ok (Ordered.find? workflows name)
  | folder path => WorkflowFolder.find files path name

end WorkflowKeeping

/-- Collaborators, and the workflows to run with them. -/
structure Session where
  stage : Rehearsal
  workflows : WorkflowKeeping

/-- Why a workflow is not run. -/
inductive SessionError where
  | notFound (name : String)
  | store (error : StoreError)

namespace Session

/-- Run a workflow against a fresh pool. -/
def run (s : Session) (workflow : Workflow) (input : PoolInput) : RunResult × Session :=
  let ((result, _), stage) := s.stage.run workflow input.pool
  (result, { s with stage })

/-- Run the workflow with a name. -/
def runNamed (s : Session) (name : String) (input : PoolInput) :
    Except SessionError (RunResult × Session) :=
  match s.workflows.find s.stage.files name with
  | .error e => .error (.store e)
  | .ok none => .error (.notFound name)
  | .ok (some workflow) => .ok (s.run workflow input)

end Session

end Stepwise
