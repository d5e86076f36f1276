import Stepwise.Yaml.Cursor

/-!
# Quoted scalars

A scalar in single quotes, in which a quote is written twice, or in double quotes, in which a
backslash starts an escape. Line breaks are folded; a line break that is escaped is dropped.
-/

namespace Stepwise.Yaml.Quoted

/-- The kind of quotes. -/
inductive Style where
  | single
  | double
  deriving DecidableEq

def Style.quote : Style → Char
  | single => '\''
  | double => '"'

/-- The character of a one letter escape. -/
def shortEscape? (c : Char) : Option Char :=
  match c with
  | '0' => some '\x00'
  | 'a' => some '\x07'
  | 'b' => some '\x08'
  | 't' => some '\t'
  | '\t' => some '\t'
  | 'n' => some '\n'
  | 'v' => some '\x0b'
  | 'f' => some '\x0c'
  | 'r' => some '\r'
  | 'e' => some '\x1b'
  | ' ' => some ' '
  | '"' => some '"'
  | '/' => some '/'
  | '\\' => some '\\'
  | 'N' => some '\u0085'
  | '_' => some '\u00a0'
  | 'L' => some '\u2028'
  | 'P' => some '\u2029'
  | _ => none

/-- How many hexadecimal digits follow the letter of an escape. -/
def codeLength? (c : Char) : Option Nat :=
  match c with
  | 'x' => some 2
  | 'u' => some 4
  | 'U' => some 8
  | _ => none

def hexValue? (c : Char) : Option Nat :=
  if c.isDigit then some (c.toNat - '0'.toNat)
  else if 'a' ≤ c ∧ c ≤ 'f' then some (c.toNat - 'a'.toNat + 10)
  else if 'A' ≤ c ∧ c ≤ 'F' then some (c.toNat - 'A'.toNat + 10)
  else none

/-- The number of hexadecimal digits. -/
def hexNumber? : Nat → List Char → Option Nat
  | n, [] => some n
  | n, c :: rest => (hexValue? c).bind fun d => hexNumber? (n * 16 + d) rest

/-- The character of a code; surrogates have none. -/
def charOfCode? (code : Nat) : Option Char :=
  if code.isValidChar then some (Char.ofNat code) else none

/-- Read an escape behind its backslash. -/
def escape? (c : Cursor) : Option (Char × Cursor) := do
  let letter ← c.peekAt? 1
  match codeLength? letter with
  | some length =>
      let digits := (c.rest.drop 2).take length
      if digits.length < length then none
      else
        let code ← hexNumber? 0 digits
        let char ← charOfCode? code
        some (char, c.skip (2 + length))
  | none => (shortEscape? letter).map fun char => (char, c.skip 2)

/-- The characters read so far, the last one first, and whether an escaped line break ended them. -/
structure Word where
  back : List Char
  joined : Bool
  next : Cursor

/-- Read the characters up to white space or the closing quote. -/
def word (style : Style) : Nat → List Char → Cursor → Option Word
  | 0, back, c => some ⟨back, false, c⟩
  | steps + 1, back, c =>
      match c.peek? with
      | none => some ⟨back, false, c⟩
      | some char =>
          if isBlank char || isBreak char then some ⟨back, false, c⟩
          else if style = .single && char == '\'' && c.peekAt? 1 == some '\'' then
            word style steps ('\'' :: back) (c.skip 2)
          else if char == style.quote then some ⟨back, false, c⟩
          else if style = .double && char == '\\' then
            if (c.peekAt? 1).any isBreak then some ⟨back, true, (c.skip 1).readBreak.2⟩
            else
              match escape? c with
              | none => none
              | some (escaped, next) => word style steps (escaped :: back) next
          else word style steps (char :: back) (c.skip 1)

/-- Read a scalar behind its opening quote. -/
def readFrom (style : Style) : Nat → List Char → Cursor → Option (List Char × Cursor)
  | 0, _, _ => none
  | steps + 1, back, c =>
      if c.isAtEdge || c.atEnd then none
      else
        match word style (steps + 1) back c with
        | none => none
        | some w =>
            if w.next.isAt style.quote then some (w.back.reverse, w.next.skip 1)
            else
              match Gap.read none (steps + 1) (if w.joined then .joined else .none) w.next with
              | none => none
              | some (gap, next) => readFrom style steps (gap.text.reverse ++ w.back) next

/-- Read the scalar that starts at a quote. -/
def read (style : Style) (c : Cursor) : Option (String × Cursor) :=
  (readFrom style (c.rest.length + 1) [] (c.skip 1)).map fun (cs, next) => (String.ofList cs, next)

end Stepwise.Yaml.Quoted
