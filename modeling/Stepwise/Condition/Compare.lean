import Stepwise.Condition
import Stepwise.Number.Reading

/-!
# Comparing values

Values are compared loosely. A number and a text that reads as a number compare as numbers; two
values that are not both numbers in this sense compare by their text. `null` equals only itself
and stands in no order with anything.
-/

namespace Stepwise.Json

/-- A value as text: a text as it is, `null` as nothing, any other value as it is written. -/
def plainText : Json → String
  | str s => s
  | null => ""
  | v => v.compact

/-- The number a value denotes: a number, or a text that reads as one. -/
def asNumber? : Json → Option Double
  | num n => some n.toDouble
  | str s => Double.ofText? (Text.trim s)
  | _ => none

def isNumber : Json → Bool
  | num _ => true
  | _ => false

def isContainer : Json → Bool
  | arr _ => true
  | obj _ => true
  | _ => false

def isNull : Json → Bool
  | null => true
  | _ => false

/-- Equal as numbers, when both values denote one. -/
def numericallyEqual (a b : Json) : Bool :=
  match a.asNumber?, b.asNumber? with
  | some x, some y => x.same y
  | _, _ => false

/-- Loose equality. Containers equal only containers with the same content. -/
def looselyEqual (a b : Json) : Bool :=
  if a.isNull || b.isNull then a.isNull && b.isNull
  else if a.isNumber || b.isNumber then numericallyEqual a b
  else if a.isContainer || b.isContainer then a.same b
  else a.plainText == b.plainText

/-- The loose order, if the values stand in one. -/
def looseOrder? (a b : Json) : Option Ordering :=
  if a.isNull || b.isNull then none
  else
    match a.asNumber?, b.asNumber? with
    | some x, some y => x.compare? y
    | _, _ => some (compare a.plainText b.plainText)

/-- Whether a text starts with another one. -/
def startsWith : List Char → List Char → Bool
  | _, [] => true
  | [], _ :: _ => false
  | c :: cs, d :: ds => c == d && startsWith cs ds

/-- Whether a text occurs in another one. -/
def occursIn (needle : List Char) : List Char → Bool
  | [] => startsWith [] needle
  | c :: cs => startsWith (c :: cs) needle || occursIn needle cs

/-- A text contains the text of any value but `null`, a list contains what equals an item. -/
def contains (a b : Json) : Bool :=
  match a with
  | str s => !b.isNull && occursIn b.plainText.toList s.toList
  | arr items => items.any fun item => item.looselyEqual b
  | _ => false

end Stepwise.Json

namespace Stepwise.Operator

/-- Whether an operator holds between two values. -/
def holds (operator : Operator) (a b : Json) : Bool :=
  match operator with
  | equal => a.looselyEqual b
  | notEqual => !a.looselyEqual b
  | greater => a.looseOrder? b == some .gt
  | greaterOrEqual => a.looseOrder? b == some .gt || a.looseOrder? b == some .eq
  | less => a.looseOrder? b == some .lt
  | lessOrEqual => a.looseOrder? b == some .lt || a.looseOrder? b == some .eq
  | contains => a.contains b

end Stepwise.Operator
