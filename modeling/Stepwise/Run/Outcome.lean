import Stepwise.Pool

/-!
# Outcomes and results

A step ends in an outcome. A run ends in a result, which the last step that sets one decides. The
outcome `pool` stands for the pool of the run as it is when the run is over.
-/

namespace Stepwise

/-- What a step ends in. -/
inductive StepOutcome where
  | succeeded (entry : PoolEntry)
  /-- The pool of the run itself. -/
  | pool
  | failed

namespace StepOutcome

/-- Success with a plain value. -/
def ofValue (value : Json) : StepOutcome := succeeded (.value value)

def isFailed : StepOutcome → Bool
  | failed => true
  | succeeded entry => entry.isFailed
  | pool => false

/-- The entry that the outcome leaves in a pool. -/
def toEntry (pool : Pool) : StepOutcome → PoolEntry
  | succeeded entry => entry
  | failed => .failed
  | StepOutcome.pool => .value (Pool.toJson pool)

end StepOutcome

/-- What a run ends in. -/
inductive RunResult where
  /-- No step set a result. -/
  | completed
  | failed
  | payload (value : Json)
  /-- The pool as it stood at the end of the run. -/
  | pool (pool : Pool)

namespace RunResult

/-- The result of a run that ends with a pool and the outcome of the last step that set one. -/
def ofOutcome (final : Pool) : Option StepOutcome → RunResult
  | none => completed
  | some .failed => failed
  | some .pool => pool final
  | some (.succeeded .failed) => failed
  | some (.succeeded entry) => payload entry.toJson

/-- Only a text or a list that is not empty is content. -/
def hasContent : RunResult → Bool
  | payload (.str s) => s != ""
  | payload (.arr items) => !items.isEmpty
  | _ => false

def toJson : RunResult → Json
  | completed => .bool true
  | failed => .bool false
  | payload v => v
  | pool p => Pool.toJson p

def kindName : RunResult → String
  | completed => "completed"
  | failed => "failed"
  | payload _ => "payload"
  | pool _ => "pool"

end RunResult

end Stepwise
