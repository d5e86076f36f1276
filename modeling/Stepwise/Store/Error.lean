import Stepwise.Decode.Document

/-!
# Failures of stores

Why a call to a store of records or of workflows fails. A document that does not decode says what is
wrong with it, as far as it has an explanation.
-/

namespace Stepwise

/-- Why a call to a store fails. -/
inductive StoreError where
  /-- A file cannot be read or written. -/
  | io (path : String)
  | decode (path : String) (fault : DocumentFault)
  | recordNotFound (id : String)

namespace StoreError

/-- The error in words, as far as it has an explanation. -/
def message? : StoreError → Option String
  | io _ => none
  | decode path fault =>
      fault.message?.map fun reason => "failed to decode " ++ path ++ ": " ++ reason
  | recordNotFound id => some ("record '" ++ id ++ "' not found")

end StoreError

end Stepwise
