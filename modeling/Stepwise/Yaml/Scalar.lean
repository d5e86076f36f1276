import Stepwise.Number.Reading
import Stepwise.Yaml.Value

/-!
# Scalars

What the text of a scalar stands for. A plain scalar is null, a truth value, a number or a text,
by how it is spelled. A tag of the core schema fixes the type; a local tag is kept with the value.
An integer may have up to 64 bits; one that needs up to 128 has no value, and a longer decimal one
is a floating point number.
-/

namespace Stepwise.Yaml

/-- The value of a digit. -/
def digitValue? (c : Char) : Option Nat :=
  if c.isDigit then some (c.toNat - '0'.toNat)
  else if 'a' ≤ c ∧ c ≤ 'z' then some (c.toNat - 'a'.toNat + 10)
  else if 'A' ≤ c ∧ c ≤ 'Z' then some (c.toNat - 'A'.toNat + 10)
  else none

/-- The number of some digits behind a number read before. -/
def readDigits (radix : Nat) (before : Nat) : List Char → Option Nat
  | [] => some before
  | c :: rest =>
      match digitValue? c with
      | none => none
      | some d => if d < radix then readDigits radix (before * radix + d) rest else none

/-- The number of at least one digit. -/
def digits? (radix : Nat) : List Char → Option Nat
  | [] => none
  | cs => readDigits radix 0 cs

def isSign (c : Char) : Bool := c == '+' || c == '-'

def startsWithSign (cs : List Char) : Bool :=
  match cs with
  | c :: _ => isSign c
  | [] => false

/-- The text without a plus in front. -/
def withoutPlus : List Char → List Char
  | '+' :: rest => rest
  | cs => cs

/-- More than one digit with a zero in front, after a sign or not: a text, never a number. -/
def isPadded (cs : List Char) : Bool :=
  match (if startsWithSign cs then cs.drop 1 else cs) with
  | '0' :: c :: rest => (c :: rest).all Char.isDigit
  | _ => false

/-- The radix that a text announces, and the digits behind. -/
def radix? : List Char → Option (Nat × List Char)
  | '0' :: 'x' :: rest => some (16, rest)
  | '0' :: 'o' :: rest => some (8, rest)
  | '0' :: 'b' :: rest => some (2, rest)
  | _ => none

/-- An integer without a minus. -/
def unsigned? (cs : List Char) : Option Nat :=
  let digits := withoutPlus cs
  match radix? digits with
  | some (radix, rest) => digits? radix rest
  | none => if startsWithSign digits || isPadded cs then none else digits? 10 digits

/-- What stands behind a minus in an integer. -/
def negated? : List Char → Option Nat
  | '-' :: digits =>
      match radix? digits with
      | some (radix, rest) => digits? radix rest
      | none => if isPadded ('-' :: digits) then none else digits? 10 digits
  | _ => none

/-- What a spelling of an integer stands for. -/
inductive IntegerReading where
  | value (n : Int)
  /-- An integer that no value can hold. -/
  | tooLarge

/-- The reading of a number whose sign is known, when it fits in 64 or in 128 bits. -/
def fitting (limit64 limit128 : Nat) (n : Nat) (signed : Int) : Option IntegerReading :=
  if n ≤ limit64 then some (.value signed)
  else if n ≤ limit128 then some .tooLarge
  else none

/-- The integer that a text spells. -/
def integer? (cs : List Char) : Option IntegerReading :=
  match unsigned? cs with
  | some n => fitting (Nat.pow 2 64 - 1) (Nat.pow 2 128 - 1) n n
  | none => (negated? cs).bind fun n => fitting (Nat.pow 2 63) (Nat.pow 2 127) n (-n)

/-- The floating point number that a text spells. -/
def float? (text : String) : Option Double :=
  if text ∈ [".inf", ".Inf", ".INF", "+.inf", "+.Inf", "+.INF"] then some .infinity
  else if text ∈ ["-.inf", "-.Inf", "-.INF"] then some { Double.infinity with negative := true }
  else if text ∈ [".nan", ".NaN", ".NAN"] then some .nan
  else (Double.ofText? text).filter Double.isFinite

def isNullText (text : String) : Bool :=
  text ∈ ["null", "Null", "NULL", "~"]

def truth? (text : String) : Option Bool :=
  if text ∈ ["true", "True", "TRUE"] then some true
  else if text ∈ ["false", "False", "FALSE"] then some false
  else none

/-- The value of an integer reading; one that is too large has none. -/
def IntegerReading.value? : IntegerReading → Option Value
  | value n => some (.num (.int n))
  | tooLarge => none

/-- The value of a plain scalar. -/
def plain? (text : String) : Option Value :=
  if text == "" || isNullText text then some .null
  else
    match truth? text, integer? text.toList with
    | some b, _ => some (.bool b)
    | none, some reading => reading.value?
    | none, none =>
        if isPadded text.toList then some (.str text)
        else
          match float? text with
          | some d => some (.num (.float d))
          | none => some (.str text)

/-- A scalar with a tag that is not local. -/
def ofCoreTag? (tag text : String) : Option Value :=
  match tag with
  | "tag:yaml.org,2002:bool" => (truth? text).map .bool
  | "tag:yaml.org,2002:int" => (integer? text.toList).bind IntegerReading.value?
  | "tag:yaml.org,2002:float" => (float? text).map fun d => .num (.float d)
  | "tag:yaml.org,2002:null" => if isNullText text then some .null else none
  | _ => some (.str text)

/-- The name of a local tag; a mark alone is its own name. -/
def localName? (tag : String) : Option String :=
  match tag.toList with
  | ['!'] => some tag
  | '!' :: rest => some (String.ofList rest)
  | _ => none

/-- Put a local tag around a value. -/
def withTag (tag : Option String) (v : Value) : Value :=
  match tag.bind localName? with
  | none => v
  | some name => .tagged name v

/-- The value of a scalar. -/
def scalar? (tag : Option String) (text : String) (isPlain : Bool) : Option Value :=
  let bare := if isPlain then plain? text else some (.str text)
  match tag with
  | none => bare
  | some t =>
      match localName? t with
      | none => ofCoreTag? t text
      | some _ => bare.map (withTag (some t))

end Stepwise.Yaml
