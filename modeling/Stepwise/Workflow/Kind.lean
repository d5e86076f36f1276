/-!
# Step types

The six types of step, the names they have in documents, and where a step of each type leaves its
output: under the step's name in the pool, or as the result of the run.
-/

namespace Stepwise

/-- The types of step that can be run. -/
inductive StepKind where
  | findRecord
  | branch
  | createPdf
  | sendEmail
  | apiCall
  | updateRecord
  deriving DecidableEq, Repr

/-- Where the output of a step goes. -/
inductive OutputPolicy where
  /-- Under the name of the step in the pool. -/
  | writePool
  /-- To the result of the run; the pool stays as it is. -/
  | setResult
  deriving DecidableEq, Repr

namespace StepKind

def all : List StepKind :=
  [findRecord, branch, createPdf, sendEmail, apiCall, updateRecord]

/-- The name of a type in documents. -/
def name : StepKind → String
  | findRecord => "find_record"
  | branch => "if"
  | createPdf => "create_pdf"
  | sendEmail => "send_email"
  | apiCall => "api_call"
  | updateRecord => "update_record"

/-- The type of a name, exactly as it is written. -/
def ofName? (text : String) : Option StepKind :=
  all.find? fun kind => kind.name == text

def policy : StepKind → OutputPolicy
  | findRecord | sendEmail | updateRecord => .writePool
  | apiCall | branch | createPdf => .setResult

/-- What is said of a name that no type has. -/
def unknownMessage (text : String) : String :=
  "unknown step type '" ++ text ++ "'"

end StepKind

/-- The name of a policy. -/
def OutputPolicy.name : OutputPolicy → String
  | .writePool => "WritePool"
  | .setResult => "SetResult"

end Stepwise
