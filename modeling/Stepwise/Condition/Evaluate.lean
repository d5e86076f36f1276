import Stepwise.Condition.Compare
import Stepwise.Pool
import Stepwise.Store.Error

/-!
# Evaluating conditions

A condition whose operators are all known asks one of two things. If no operand reads the record
that is being matched, it holds or not for the pool alone. Otherwise it looks for the first record
of its collection for which every statement holds. An unknown operator is an error, whatever the
other statements say, and no record is looked at.
-/

namespace Stepwise

/-- What a condition evaluates to: a record that satisfies it, or a truth value. -/
inductive Evaluation where
  | record (value : Variable)
  | truth (holds : Bool)

namespace Evaluation

def truthy : Evaluation → Bool
  | record _ => true
  | truth holds => holds

/-- The entry that a lookup leaves in the pool. -/
def toEntry : Evaluation → PoolEntry
  | record v => .var v
  | truth true => .value (.bool true)
  | truth false => .failed

end Evaluation

/-- Why a condition does not evaluate. -/
inductive EvaluationError where
  | unsupportedOperator (text : String)
  | store (error : StoreError)

/-- The value of an operand; what is missing counts as `null`. -/
def Operand.resolve (pool : Pool) (record : Option Variable) : Operand → Json
  | bare v => v
  | literal v => v
  | variableField f =>
      ((pool.variableAt? f.reference.key).bind fun v => v.field? f.field).getD .null
  | recordField f => (record.bind fun v => v.field? f).getD .null

/-- A statement whose operator is known. -/
structure Comparison where
  lhs : Operand
  operator : Operator
  rhs : Operand

namespace Comparison

/-- Whether a comparison holds for a pool and, perhaps, a record. -/
def holds (pool : Pool) (record : Option Variable) (c : Comparison) : Bool :=
  c.operator.holds (c.lhs.resolve pool record) (c.rhs.resolve pool record)

/-- The comparisons of statements, or the first operator that is not known. -/
def ofStatements : List Statement → Except EvaluationError (List Comparison)
  | [] => .ok []
  | s :: rest =>
      match Operator.ofText? s.operator with
      | none => .error (.unsupportedOperator (Text.trim s.operator))
      | some operator => (ofStatements rest).map (⟨s.lhs, operator, s.rhs⟩ :: ·)

/-- Whether all comparisons hold. -/
def allHold (comparisons : List Comparison) (pool : Pool) (record : Option Variable) : Bool :=
  comparisons.all fun c => c.holds pool record

end Comparison

/-- What a condition asks of a pool. -/
inductive Question where
  /-- Nothing: the answer is known. -/
  | settled (holds : Bool)
  /-- The first record of a collection, or of all, that passes a test. -/
  | firstRecord (object : Option String) (test : Variable → Bool)

/-- The question of a condition. -/
def Condition.question (c : Condition) (pool : Pool) : Except EvaluationError Question :=
  match Comparison.ofStatements c.statements with
  | .error e => .error e
  | .ok comparisons =>
      if c.readsRecords then
        .ok (.firstRecord c.object fun v => Comparison.allHold comparisons pool (some v))
      else .ok (.settled (Comparison.allHold comparisons pool none))

/-- The answer that a list of candidates gives. -/
def Evaluation.ofCandidates (test : Variable → Bool) (candidates : List Variable) : Evaluation :=
  match candidates.find? test with
  | some v => .record v
  | none => .truth false

/-- Evaluate a condition, given how the records of a collection are listed. -/
def Condition.evaluate {σ : Type}
    (list : Option String → StateM σ (Except StoreError (List Variable)))
    (c : Condition) (pool : Pool) : StateM σ (Except EvaluationError Evaluation) :=
  match c.question pool with
  | .error e => pure (.error e)
  | .ok (.settled holds) => pure (.ok (.truth holds))
  | .ok (.firstRecord object test) => do
      match ← list object with
      | .error e => return .error (.store e)
      | .ok candidates => return .ok (Evaluation.ofCandidates test candidates)

end Stepwise
