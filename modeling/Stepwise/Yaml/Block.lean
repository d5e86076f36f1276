import Stepwise.Yaml.Cursor

/-!
# Block scalars

A scalar of whole lines behind a bar, which keeps its line breaks, or behind an angle, which folds
them. The header may fix the indentation and what happens to the line breaks at the end.
-/

namespace Stepwise.Yaml.Block

/-- What happens to the line breaks at the end. -/
inductive Chomping where
  | strip
  | clip
  | keep
  deriving DecidableEq

def chomping? (c : Cursor) : Option (Chomping × Cursor) :=
  if c.isAt '+' then some (.keep, c.skip 1)
  else if c.isAt '-' then some (.strip, c.skip 1)
  else none

/-- An indentation of one digit; zero is an error. -/
def increment? (c : Cursor) : Option (Nat × Cursor) :=
  match c.peek? with
  | some char =>
      if char.isDigit then
        if char == '0' then none else some (char.toNat - '0'.toNat, c.skip 1)
      else some (0, c)
  | none => some (0, c)

/-- The header of a block scalar behind its first character: chomping, and indentation or zero. -/
def header (c : Cursor) : Option (Chomping × Nat × Cursor) :=
  match chomping? c with
  | some (chomping, c) => (increment? c).map fun (n, c) => (chomping, n, c)
  | none =>
      (increment? c).map fun (n, c) =>
        match if n = 0 then none else chomping? c with
        | some (chomping, c) => (chomping, n, c)
        | none => (.clip, n, c)

/-- Go to the next line, over blanks and a comment. -/
def endLine (c : Cursor) : Option Cursor :=
  let c := c.skipAll isBlank
  let c := if c.isAt '#' then c.skipToBreak else c
  if c.atEnd || c.isAtBreak then some c.readBreak.2 else none

/-- Empty lines, and the place behind the indentation of the line that follows. -/
structure Margin where
  breaks : List Char
  widest : Nat
  next : Cursor

/-- Go over the spaces that indent a line; without an indentation these are all spaces. -/
def indented (indent : Nat) (c : Cursor) : Cursor :=
  let spaces := (c.rest.takeWhile (· == ' ')).length
  c.skip (if indent = 0 then spaces else min spaces (indent - c.column))

/-- Read empty lines. A tab in place of an indentation is an error. -/
def margin (indent : Nat) : Nat → Margin → Option Margin
  | 0, m => some m
  | steps + 1, m =>
      let c := indented indent m.next
      let widest := max m.widest c.column
      if (indent = 0 || c.column < indent) && c.isAt '\t' then none
      else if c.isAtBreak then
        let (ending, next) := c.readBreak
        margin indent steps ⟨m.breaks ++ ending, widest, next⟩
      else some ⟨m.breaks, widest, c⟩

/-- A scalar read up to the start of a line. -/
structure Progress where
  back : List Char
  /-- The break behind the last line. -/
  ending : List Char
  /-- The empty lines behind it. -/
  breaks : List Char
  /-- Whether the last line starts with a blank. -/
  startsBlank : Bool
  next : Cursor

/-- What stands between the last line and a further one. -/
def Progress.between (p : Progress) (folded : Bool) : List Char :=
  if folded && p.ending == ['\n'] && !p.startsBlank && !p.next.isAtBlank then
    if p.breaks.isEmpty then [' '] else p.breaks
  else p.ending ++ p.breaks

/-- Read lines with an indentation. -/
def lines (folded : Bool) (indent : Nat) : Nat → Progress → Option Progress
  | 0, p => some p
  | steps + 1, p =>
      if p.next.column == indent && !p.next.atEnd then
        let (content, atBreak) := p.next.span fun char => !isBreak char
        let (ending, behind) := atBreak.readBreak
        match margin indent (behind.rest.length + 1) ⟨[], 0, behind⟩ with
        | none => none
        | some m =>
            lines folded indent steps
              ⟨content.reverse ++ ((p.between folded).reverse ++ p.back), ending, m.breaks,
                p.next.isAtBlank, m.next⟩
      else some p

/-- The text of a finished scalar. -/
def Progress.text (p : Progress) : Chomping → List Char
  | .strip => p.back.reverse
  | .clip => p.back.reverse ++ p.ending
  | .keep => p.back.reverse ++ p.ending ++ p.breaks

/-- Read the scalar that starts at a bar or an angle, inside a block with an indentation. -/
def read (folded : Bool) (outer : Int) (c : Cursor) : Option (String × Cursor) := do
  let (chomping, increment, c) ← header (c.skip 1)
  let c ← endLine c
  let given := if increment = 0 then 0 else (max outer 0).toNat + increment
  let m ← margin given (c.rest.length + 1) ⟨[], 0, c⟩
  let indent := if given = 0 then max m.widest (max (outer + 1).toNat 1) else given
  let p ← lines folded indent (m.next.rest.length + 1) ⟨[], [], m.breaks, false, m.next⟩
  some (String.ofList (p.text chomping), p.next)

end Stepwise.Yaml.Block
