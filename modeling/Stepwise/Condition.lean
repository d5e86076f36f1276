import Stepwise.Variable
import Stepwise.Text.Blank

/-!
# Conditions

A condition is a list of statements that must all hold, and the collection whose records it is
about. A statement compares two operands. An operand is a literal, a field of a variable in the
pool, or a field of the record that is being matched; a value that has none of these written forms
is a literal as it stands.
-/

namespace Stepwise

/-- The ways in which two values are compared. -/
inductive Operator where
  | equal
  | notEqual
  | greater
  | greaterOrEqual
  | less
  | lessOrEqual
  | contains
  deriving DecidableEq, Repr

namespace Operator

/-- The spellings of each operator. -/
def spellings : Operator → List String
  | equal => ["==", "===", "=", "equals", "eq"]
  | notEqual => ["!=", "!==", "not_equals", "ne"]
  | greater => [">", "gt"]
  | greaterOrEqual => [">=", "gte"]
  | less => ["<", "lt"]
  | lessOrEqual => ["<=", "lte"]
  | contains => ["contains", "includes"]

def all : List Operator :=
  [equal, notEqual, greater, greaterOrEqual, less, lessOrEqual, contains]

def symbol : Operator → String
  | equal => "=="
  | notEqual => "!="
  | greater => ">"
  | greaterOrEqual => ">="
  | less => "<"
  | lessOrEqual => "<="
  | contains => "contains"

/-- The operator with a spelling. White space around it does not count, case does. -/
def ofText? (text : String) : Option Operator :=
  all.find? fun operator => (Text.trim text) ∈ operator.spellings

/-- What is said of a text that spells no operator. -/
def unsupportedMessage (text : String) : String :=
  "unsupported condition operator '" ++ Text.trim text ++ "'"

end Operator

/-- One side of a statement. -/
inductive Operand where
  /-- A value without a written form of its own. -/
  | bare (value : Json)
  | literal (value : Json)
  /-- A field of a variable in the pool. -/
  | variableField (field : VariableField)
  /-- A field of the record that is being matched. -/
  | recordField (field : String)
  deriving BEq

namespace Operand

def isRecordField : Operand → Bool
  | recordField _ => true
  | _ => false

/-- The name of the form in which an operand is written. -/
def shapeName : Operand → String
  | bare _ => "bare"
  | literal _ => "literal"
  | variableField _ => "variable"
  | recordField _ => "field"

def typed (kind : String) (value : Json) : Json :=
  .obj [("type", .str kind), ("value", value)]

def toJson : Operand → Json
  | bare v => v
  | literal v => typed "literal" v
  | variableField f => typed "variable" f.toJson
  | recordField f => typed "field" (.str f)

/-- The name in the `type` of an operand: a text, or a map with `null` under its only key. -/
def typeName? : Json → Option String
  | .str s => some s
  | .obj [(s, .null)] => some s
  | _ => none

/-- An operand given by its type and its value. -/
def ofParts? (type value : Json) : Option Operand :=
  match typeName? type with
  | none => none
  | some name =>
      if name = "literal" then some (literal value.normal)
      else if name = "variable" then (VariableField.decode value).toOption.map variableField
      else if name = "field" then (Json.decodeText value).toOption.map recordField
      else none

/-- Whether a name stands among the members more than once. -/
def occursTwice (key : String) (members : List (String × Json)) : Bool :=
  1 < (members.filter fun m => m.1 == key).length

/-- An operand in one of the written forms, as a map or as a list of two. -/
def typed? : Json → Option Operand
  | .obj members =>
      if occursTwice "type" members || occursTwice "value" members then none
      else
        match Ordered.find? members "type", Ordered.find? members "value" with
        | some type, some value => ofParts? type value
        | _, _ => none
  | .arr [type, value] => ofParts? type value
  | _ => none

/-- Every value is an operand. -/
def ofJson (v : Json) : Operand :=
  match typed? v with
  | some operand => operand
  | none => bare v.normal

def decode (v : Json) : Except DecodeError Operand :=
  .ok (ofJson v)

end Operand

/-- A comparison; the operator is kept as it is written. -/
structure Statement where
  lhs : Operand
  operator : String
  rhs : Operand
  deriving BEq

namespace Statement

def toJson (s : Statement) : Json :=
  .obj [("lhs", s.lhs.toJson), ("operator", .str s.operator), ("rhs", s.rhs.toJson)]

def decode : Json → Except DecodeError Statement :=
  Json.decodeRecord "Statement" ["lhs", "operator", "rhs"] fun fields =>
    mk <$> fields.required "lhs" Operand.decode
      <*> fields.required "operator" Json.decodeText
      <*> fields.required "rhs" Operand.decode

def readsRecord (s : Statement) : Bool :=
  s.lhs.isRecordField || s.rhs.isRecordField

end Statement

/-- Statements that must all hold, and the collection they are about, if one is named. -/
structure Condition where
  object : Option String
  statements : List Statement
  deriving BEq

namespace Condition

/-- The condition that always holds. -/
def always : Condition := ⟨none, []⟩

def toJson (c : Condition) : Json :=
  .obj (optionalMember "object" c.object ++
    [("statements", .arr (c.statements.map Statement.toJson))])

def decode : Json → Except DecodeError Condition :=
  Json.decodeRecord "Condition" ["object", "statements"] fun fields =>
    mk <$> fields.withDefault "object" (Json.decodeOptional Json.decodeText) none
      <*> fields.withDefault "statements" (Json.decodeList Statement.decode) []

/-- Whether some operand reads a field of the record that is being matched. -/
def readsRecords (c : Condition) : Bool :=
  c.statements.any Statement.readsRecord

/-- The condition about a collection, unless it names one itself or the name is empty. -/
def within (c : Condition) (object : String) : Condition :=
  if c.object.isSome || object == "" then c else { c with object := some object }

end Condition

end Stepwise
