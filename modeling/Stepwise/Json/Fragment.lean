import Stepwise.Json.Literal
import Stepwise.Text.Units

/-!
# Reading JSON text

The text of a value is read as far as it goes. What has been read is a `Fragment`: a value in which
the place where the text stops being JSON is marked, and whose objects may repeat a name. A text
without such a place gives a value (`Json.parse?`). Containers may stand in one another up to 127
deep.

A text can be well formed and yet spell what no value holds: a number beyond the range, half of a
character, containers that stand in one another too deep. Who does not ask for it passes it over, so
the reading goes on behind it and the fragment has a mark in its place.
-/

namespace Stepwise

/-- A value as far as it could be read. An open container or a `broken` one ends the text. -/
inductive Fragment where
  | null
  | bool (value : Bool)
  | num (value : Number)
  | str (value : String)
  | arr (items : List Fragment) (closed : Bool)
  | obj (members : List (String × Fragment)) (closed : Bool)
  | broken
  /-- What no value holds, but can be passed over. -/
  | passed
  /-- An object that is passed over from a name on that no text is. -/
  | passedObj (members : List (String × Fragment))
  deriving Repr, Inhabited

namespace Fragment

mutual

/-- A value seen as something that was read whole. -/
def ofJson : Json → Fragment
  | .null => null
  | .bool b => bool b
  | .num n => num n
  | .str s => str s
  | .arr items => arr (ofItems items) true
  | .obj members => obj (ofMembers members) true

def ofItems : List Json → List Fragment
  | [] => []
  | v :: rest => ofJson v :: ofItems rest

def ofMembers : List (String × Json) → List (String × Fragment)
  | [] => []
  | (k, v) :: rest => (k, ofJson v) :: ofMembers rest

end

mutual

/-- The value, if nothing is missing. -/
def toJson? : Fragment → Option Json
  | null => some .null
  | bool b => some (.bool b)
  | num n => some (.num n)
  | str s => some (.str s)
  | arr items closed => if closed then (toItems? items).map .arr else none
  | obj members closed => if closed then (toMembers? members).map .obj else none
  | broken | passed | passedObj _ => none

def toItems? : List Fragment → Option (List Json)
  | [] => some []
  | v :: rest =>
      match toJson? v with
      | none => none
      | some w => (toItems? rest).map (w :: ·)

def toMembers? : List (String × Fragment) → Option (List (String × Json))
  | [] => some []
  | (k, v) :: rest =>
      match toJson? v with
      | none => none
      | some w => (toMembers? rest).map ((k, w) :: ·)

end

/-! ## Texts -/

/-- The white space of JSON. -/
def isSpace (c : Char) : Bool :=
  c == ' ' || c == '\n' || c == '\t' || c == '\r'

def skipSpace (cs : List Char) : List Char :=
  cs.dropWhile isSpace

/-- The value of a hexadecimal digit of either case. -/
def hexValue? (c : Char) : Option Nat :=
  if '0' ≤ c ∧ c ≤ '9' then some (c.toNat - '0'.toNat)
  else if 'a' ≤ c ∧ c ≤ 'f' then some (c.toNat - 'a'.toNat + 10)
  else if 'A' ≤ c ∧ c ≤ 'F' then some (c.toNat - 'A'.toNat + 10)
  else none

/-- The number of four hexadecimal digits. -/
def unit? (a b c d : Char) : Option Nat := do
  let a ← hexValue? a
  let b ← hexValue? b
  let c ← hexValue? c
  let d ← hexValue? d
  return ((a * 16 + b) * 16 + c) * 16 + d

/-- The character that a one letter escape stands for. -/
def shortEscape? (c : Char) : Option Char :=
  match c with
  | '"' => some '"'
  | '\\' => some '\\'
  | '/' => some '/'
  | 'b' => some '\x08'
  | 'f' => some '\x0c'
  | 'n' => some '\n'
  | 'r' => some '\r'
  | 't' => some '\t'
  | _ => none

/-- Read a text behind its opening quote, up to and with the closing one. A surrogate unit counts
only as half of a pair. -/
def readText : List Char → Option (List Char × List Char)
  | [] => none
  | '"' :: rest => some ([], rest)
  | '\\' :: 'u' :: a :: b :: c :: d :: rest =>
      match unit? a b c d with
      | none => none
      | some u =>
          if Text.isLeadUnit u then
            match rest with
            | '\\' :: 'u' :: e :: f :: g :: h :: rest =>
                match unit? e f g h with
                | none => none
                | some v =>
                    if Text.isTrailUnit v then
                      (readText rest).map fun (cs, rest) => (Text.charOfPair u v :: cs, rest)
                    else none
            | _ => none
          else if Text.isTrailUnit u then none
          else (readText rest).map fun (cs, rest) => (Char.ofNat u :: cs, rest)
  | '\\' :: c :: rest =>
      match shortEscape? c with
      | none => none
      | some e => (readText rest).map fun (cs, rest) => (e :: cs, rest)
  | c :: rest =>
      if c.toNat < 0x20 ∨ c = '\\' then none
      else (readText rest).map fun (cs, rest) => (c :: cs, rest)

/-! ## Values that are passed over -/

/-- The rest of a text behind its closing quote, whatever units its escapes stand for. -/
def passText : List Char → Option (List Char)
  | [] => none
  | '"' :: rest => some rest
  | '\\' :: 'u' :: a :: b :: c :: d :: rest =>
      match unit? a b c d with
      | none => none
      | some _ => passText rest
  | '\\' :: c :: rest =>
      match shortEscape? c with
      | none => none
      | some _ => passText rest
  | c :: rest => if c.toNat < 0x20 ∨ c = '\\' then none else passText rest

/-- The rest behind the items of an array that is not empty. -/
def passItems (item : List Char → Option (List Char)) : Nat → List Char → Option (List Char)
  | 0, _ => none
  | rounds + 1, cs =>
      match (item cs).map skipSpace with
      | some (',' :: rest) => passItems item rounds rest
      | some (']' :: rest) => some rest
      | _ => none

/-- The rest behind the members of an object that is not empty. -/
def passMembers (item : List Char → Option (List Char)) : Nat → List Char → Option (List Char)
  | 0, _ => none
  | rounds + 1, cs =>
      match skipSpace cs with
      | '"' :: cs =>
          match (passText cs).map skipSpace with
          | some (':' :: cs) =>
              match (item cs).map skipSpace with
              | some (',' :: rest) => passMembers item rounds rest
              | some ('\x7d' :: rest) => some rest
              | _ => none
          | _ => none
      | _ => none

/-- The rest behind a value in which containers may nest to a depth. -/
def passValue : Nat → List Char → Option (List Char)
  | level, cs =>
      match skipSpace cs with
      | 'n' :: 'u' :: 'l' :: 'l' :: rest => some rest
      | 't' :: 'r' :: 'u' :: 'e' :: rest => some rest
      | 'f' :: 'a' :: 'l' :: 's' :: 'e' :: rest => some rest
      | '"' :: rest => passText rest
      | '[' :: rest =>
          match level with
          | 0 => none
          | level + 1 =>
              match skipSpace rest with
              | ']' :: rest => some rest
              | rest => passItems (passValue level) (rest.length + 1) rest
      | '\x7b' :: rest =>
          match level with
          | 0 => none
          | level + 1 =>
              match skipSpace rest with
              | '\x7d' :: rest => some rest
              | rest => passMembers (passValue level) (rest.length + 1) rest
      | rest => (Json.readLiteral (Json.splitMinus rest).2).map Prod.snd

/-- What stands for a value that is passed over, by what was read of it. -/
def pass : Fragment → Fragment
  | obj members _ => passedObj members
  | _ => passed

/-! ## Values -/

/-- What was read, and the rest of the text unless the reading broke off. -/
abbrev Reading (α : Type) := α × Option (List Char)

/-- Read the items of an array behind its opening bracket, when it is not empty. Each item takes
at least one character, so the length of the text bounds the rounds. -/
def readItems (item : List Char → Reading Fragment) :
    Nat → List Char → Reading (List Fragment)
  | 0, _ => ([], none)
  | rounds + 1, cs =>
      match item cs with
      | (v, none) => ([v], none)
      | (v, some rest) =>
          match skipSpace rest with
          | ',' :: rest =>
              let (vs, rest) := readItems item rounds rest
              (v :: vs, rest)
          | ']' :: rest => ([v], some rest)
          | _ => ([v], none)

/-- Read the members of an object behind its opening brace, when it is not empty. -/
def readMembers (item : List Char → Reading Fragment) :
    Nat → List Char → Reading (List (String × Fragment))
  | 0, _ => ([], none)
  | rounds + 1, cs =>
      match skipSpace cs with
      | '"' :: cs =>
          match readText cs with
          | none => ([], none)
          | some (key, rest) =>
              let key := String.ofList key
              match skipSpace rest with
              | ':' :: rest =>
                  match item rest with
                  | (v, none) => ([(key, v)], none)
                  | (v, some rest) =>
                      match skipSpace rest with
                      | ',' :: rest =>
                          let (ms, rest) := readMembers item rounds rest
                          ((key, v) :: ms, rest)
                      | '\x7d' :: rest => ([(key, v)], some rest)
                      | _ => ([(key, v)], none)
              | _ => ([(key, .broken)], none)
      | _ => ([], none)

/-- A reading of a text. Where it has broken off, what could not be read is passed over if it is well
formed; its containers may nest as deep as the text is long. -/
def orPass (cs : List Char) : Reading Fragment → Reading Fragment
  | (v, some rest) => (v, some rest)
  | (v, none) =>
      match passValue cs.length cs with
      | some rest => (v.pass, some rest)
      | none => (v, none)

/-- Read one value in which containers may nest to a depth. -/
def readValue : Nat → List Char → Reading Fragment
  | level, cs => orPass (skipSpace cs) <|
      match skipSpace cs with
      | 'n' :: 'u' :: 'l' :: 'l' :: rest => (.null, some rest)
      | 't' :: 'r' :: 'u' :: 'e' :: rest => (.bool true, some rest)
      | 'f' :: 'a' :: 'l' :: 's' :: 'e' :: rest => (.bool false, some rest)
      | '"' :: rest =>
          match readText rest with
          | some (s, rest) => (.str (String.ofList s), some rest)
          | none => (.broken, none)
      | '[' :: rest =>
          match level with
          | 0 => (.broken, none)
          | level + 1 =>
              match skipSpace rest with
              | ']' :: rest => (.arr [] true, some rest)
              | rest =>
                  let (vs, rest) := readItems (readValue level) (rest.length + 1) rest
                  (.arr vs rest.isSome, rest)
      | '\x7b' :: rest =>
          match level with
          | 0 => (.broken, none)
          | level + 1 =>
              match skipSpace rest with
              | '\x7d' :: rest => (.obj [] true, some rest)
              | rest =>
                  let (ms, rest) := readMembers (readValue level) (rest.length + 1) rest
                  (.obj ms rest.isSome, rest)
      | rest =>
          match Json.readNumber rest with
          | some (n, rest) => (.num n, some rest)
          | none => (.broken, none)

/-- Containers may nest this deep. -/
def maxDepth : Nat := 127

/-- Read a text: the fragment, and whether nothing but white space follows it. -/
def ofText (text : String) : Fragment × Bool :=
  match readValue maxDepth text.toList with
  | (v, some rest) => (v, (skipSpace rest).isEmpty)
  | (v, none) => (v, false)

end Fragment

namespace Json

/-- The value a text denotes, with repeated names as they stand. -/
def parse? (text : String) : Option Json :=
  match Fragment.ofText text with
  | (v, true) => v.toJson?
  | (_, false) => none

end Json

end Stepwise
