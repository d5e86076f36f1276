import Stepwise.Json.Printer
import Stepwise.Text.Printable
import Stepwise.Workflow.Kind

/-!
# Why a value does not decode

Each way in which a value fails to have an expected shape is a constructor of `DecodeError`.
`DecodeError.message` puts it into words. The words depend on where the value came from: read
from the source text of a document, an enumerated value of a wrong type and superfluous items are
met by the reader of the text itself, and a YAML document has words of its own for `null` and
numbers.
-/

namespace Stepwise

/-- What stands where something else was expected. -/
inductive Found where
  | null
  | bool (value : Bool)
  | num (value : Number)
  | str (value : String)
  | sequence
  | map
  | tagged

/-- What was expected. -/
inductive Expected where
  | text
  | truth
  | map
  | sequence
  | record (name : String)
  | choice
  | unit
  | unsigned (bits : Nat)
  | path
  | fieldName
  | keyText
  | anyJson

/-- The reason why a value does not decode. -/
inductive DecodeError where
  /-- The text stops being well formed here. -/
  | brokenText
  /-- A value of another type than the expected one. -/
  | unexpected (found : Found) (expected : Expected)
  /-- A value of the right type that lies outside the range. -/
  | outOfRange (found : Found) (expected : Expected)
  /-- An enumerated value is neither a text nor a map. -/
  | notChoice (found : Found)
  /-- An enumerated value written as a map with no member or with several. -/
  | notSingle
  | unknownChoice (found : String) (choices : List String)
  | missing (field : String)
  | duplicate (field : String)
  /-- A record written as a list ends before the field with this index. -/
  | tooFew (index : Nat) (record : String) (fields : Nat)
  /-- A record written as a list goes on after its last field. -/
  | tooMany (length : Nat)
  /-- No alternative of a shape fits. -/
  | noMatch (shape : String)
  | badIdentifier (value : Json)
  | badIdentifierObject
  /-- The meta of a step does not fit its type. -/
  | malformedMeta (label : String) (kind : StepKind) (cause : DecodeError)

/-- Where a decoded value came from. -/
inductive Wording where
  | value
  | source
  | yaml
  deriving DecidableEq

def Json.found : Json → Found
  | .null => .null
  | .bool b => .bool b
  | .num n => .num n
  | .str s => .str s
  | .arr _ => .sequence
  | .obj _ => .map

namespace Found

def numberText (wording : Wording) : Number → String
  | .int n => "integer \x60" ++ toString n ++ "\x60"
  | .float d =>
      "floating point \x60" ++ (if wording = .yaml then d.plainText else d.text) ++ "\x60"

def text (wording : Wording) : Found → String
  | null => if wording = .yaml then "unit value" else "null"
  | bool b => "boolean \x60" ++ (if b then "true" else "false") ++ "\x60"
  | num n => numberText wording n
  | str s => "string " ++ Text.shown s
  | sequence => "sequence"
  | map => "map"
  | tagged => "enum"

end Found

def Expected.words : Expected → String
  | text => "a string"
  | truth => "a boolean"
  | map => "a map"
  | sequence => "a sequence"
  | record name => "struct " ++ name
  | choice => "string or map"
  | unit => "unit"
  | unsigned bits => "u" ++ toString bits
  | path => "path string"
  | fieldName => "field identifier"
  | keyText => "a string key"
  | anyJson => "any valid JSON value"

namespace DecodeError

def ticked (s : String) : String := "\x60" ++ s ++ "\x60"

/-- The choices of an enumerated value in words. -/
def choicesText : List String → String
  | [] => "there are no variants"
  | [a] => "expected " ++ ticked a
  | [a, b] => "expected " ++ ticked a ++ " or " ++ ticked b
  | many => "expected one of " ++ ", ".intercalate (many.map ticked)

/-- The error in words. The meta of a step is always decoded from a value. -/
def message (wording : Wording) : DecodeError → String
  | brokenText => "the text is not well formed"
  | unexpected found expected =>
      "invalid type: " ++ found.text wording ++ ", expected " ++ expected.words
  | outOfRange found expected =>
      "invalid value: " ++ found.text wording ++ ", expected " ++ expected.words
  | notChoice found =>
      if wording = .source then "expected value"
      else "invalid type: " ++ found.text wording ++ ", expected " ++ Expected.choice.words
  | notSingle =>
      if wording = .source then "expected value"
      else "invalid value: map, expected map with a single key"
  | unknownChoice found choices =>
      "unknown variant " ++ ticked found ++ ", " ++ choicesText choices
  | missing field => "missing field " ++ ticked field
  | duplicate field => "duplicate field " ++ ticked field
  | tooFew index record fields =>
      "invalid length " ++ toString index ++ ", expected struct " ++ record ++ " with " ++
        toString fields ++ (if fields = 1 then " element" else " elements")
  | tooMany length =>
      if wording = .source then "trailing characters"
      else "invalid length " ++ toString length ++ ", expected fewer elements in array"
  | noMatch shape => "data did not match any variant of untagged enum " ++ shape
  | badIdentifier value =>
      "record identifier must be a string or number, got " ++ value.compact
  | badIdentifierObject => "record identifier object must contain a string '$oid'"
  | malformedMeta label kind cause =>
      "step '" ++ label ++ "' of type '" ++ kind.name ++ "' has malformed meta: " ++
        cause.message .value

/-- Errors that the reader of a source text reports as a fault of the text. -/
def isTextFault : DecodeError → Bool
  | brokenText | notChoice _ | notSingle | tooMany _ => true
  | _ => false

end DecodeError

end Stepwise
