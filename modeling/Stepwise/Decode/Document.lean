import Stepwise.Decode.InOrder

/-!
# Documents

A document is a text for one value, with nothing but white space around it. It is decoded in the
order of the text. A document that is no well formed text at all has no further explanation; one of
a wrong shape says what is wrong with it.
-/

namespace Stepwise

/-- What is wrong with a document. -/
inductive DocumentFault where
  /-- The text is not well formed. -/
  | malformed
  | shape (wording : Wording) (error : DecodeError)

/-- The explanation of a fault, if it has one. -/
def DocumentFault.message? : DocumentFault → Option String
  | malformed => none
  | shape wording error => some (error.message wording)

/-- Decode a document. An error of the decoding is a fault of the document. -/
def Fragment.decodeDocument {α : Type} (read : Fragment → Except DecodeError α)
    (fault : DecodeError → DocumentFault) (text : String) : Except DocumentFault α :=
  let (v, complete) := ofText text
  match read v with
  | .error e => .error (fault e)
  | .ok a => if complete then .ok a else .error .malformed

end Stepwise
