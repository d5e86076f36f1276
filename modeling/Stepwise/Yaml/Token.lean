import Stepwise.Yaml.Block
import Stepwise.Yaml.Quoted
import Stepwise.Yaml.Tag

/-!
# Tokens

The words of a YAML text. Where a line is indented further than the block around it, a token opens
a block, and where it is indented less, tokens close blocks. A scalar, an alias or a bracket may
turn out to be a key when a colon follows on the same line; the key token, and the token that opens
the mapping if it is the first key, are then put in front of it.
-/

namespace Stepwise.Yaml

/-- A word of a text. -/
inductive Token where
  | version (major minor : Nat)
  | handle (handle start : List Char)
  | documentStart
  | documentEnd
  | sequenceBlock
  | mappingBlock
  | blockEnd
  | openBracket
  | closeBracket
  | openBrace
  | closeBrace
  | entry
  | comma
  | key
  | value
  | anchor (name : String)
  | alias (name : String)
  | tag (tag : Tag.Written)
  | scalar (text : String) (isPlain : Bool)
  deriving Inhabited

/-- A place where a key may have started. A required key must turn out to be one. -/
structure KeyPlace where
  required : Bool
  /-- How many tokens stand in front. -/
  before : Nat
  place : Cursor

/-- A text read up to a place. -/
structure Lexer where
  cursor : Cursor
  /-- The tokens, the last one first. -/
  back : List Token
  /-- The column of the block, -1 outside of all blocks. -/
  indent : Int
  /-- The columns of the blocks around it. -/
  outer : List Int
  /-- The key that may have started inside the innermost brackets. -/
  key : Option KeyPlace
  /-- Those that may have started in front of the brackets around. -/
  keysAround : List (Option KeyPlace)
  /-- Whether a key may start here. -/
  keyAllowed : Bool

namespace Lexer

def start (text : String) : Lexer where
  cursor := Cursor.start text
  back := []
  indent := -1
  outer := []
  key := none
  keysAround := []
  keyAllowed := true

/-- Whether the place is inside brackets. -/
def inFlow (l : Lexer) : Bool := !l.keysAround.isEmpty

def column (l : Lexer) : Int := l.cursor.column

/-- Add a token and go on at a cursor. -/
def emit (l : Lexer) (token : Token) (next : Cursor) : Lexer :=
  { l with back := token :: l.back, cursor := next }

/-- Put tokens behind the first so many ones. -/
def insert (l : Lexer) (before : Nat) (tokens : List Token) : Lexer :=
  let later := l.back.length - before
  { l with back := l.back.take later ++ tokens.reverse ++ l.back.drop later }

/-! ## White space -/

/-- Go over white space and comments. A tab counts as white space only where no key may start. -/
def skipSpace : Nat → Lexer → Lexer
  | 0, l => l
  | steps + 1, l =>
      let c := l.cursor.skipAll fun char =>
        char == ' ' || (char == '\t' && (l.inFlow || !l.keyAllowed))
      let c := if c.isAt '#' then c.skipToBreak else c
      if c.isAtBreak then
        skipSpace steps
          { l with cursor := c.readBreak.2, keyAllowed := l.keyAllowed || !l.inFlow }
      else { l with cursor := c }

/-- Go over a byte order mark at the start of the text. -/
def skipMark (l : Lexer) : Lexer :=
  if l.cursor.index == 0 && l.cursor.isAt '\ufeff' then { l with cursor := l.cursor.skip 1 } else l

/-! ## Blocks -/

/-- Close the blocks that are indented further than a column. -/
def closeBlocks (column : Int) : List Int → Lexer → Lexer
  | [], l => l
  | around :: rest, l =>
      if column < l.indent then
        closeBlocks column rest
          { l with back := .blockEnd :: l.back, indent := around, outer := rest }
      else l

/-- Close the blocks that end at a column. -/
def unindent (column : Int) (l : Lexer) : Lexer :=
  if l.inFlow then l else closeBlocks column l.outer l

/-- Open a block in front of what stands behind the first so many tokens, if it is indented
further than the block around it. -/
def openBlock (l : Lexer) (column : Int) (before : Nat) (token : Token) : Lexer :=
  if l.inFlow then l
  else if l.indent < column then
    { l.insert before [token] with indent := column, outer := l.indent :: l.outer }
  else l

/-! ## Keys -/

/-- Whether a key that started at a place cannot be one any more. -/
def isStale (here : Cursor) (k : KeyPlace) : Bool :=
  k.place.line < here.line || k.place.index + 1024 < here.index

/-- Drop a key that cannot be one any more; a required one is an error. -/
def freshKey (here : Cursor) (key : Option KeyPlace) : Option (Option KeyPlace) :=
  match key with
  | none => some none
  | some k => if isStale here k then if k.required then none else some none else some (some k)

/-- Drop all keys that cannot be ones any more. -/
def freshKeys (l : Lexer) : Option Lexer := do
  let key ← freshKey l.cursor l.key
  let keysAround ← l.keysAround.mapM (freshKey l.cursor)
  some { l with key, keysAround }

/-- Give up the key that may have started here; a required one is an error. -/
def dropKey (l : Lexer) : Option Lexer :=
  match l.key with
  | some k => if k.required then none else some { l with key := none }
  | none => some l

/-- Note that a key may start here. -/
def noteKey (l : Lexer) : Option Lexer :=
  if l.keyAllowed then
    match l.dropKey with
    | none => none
    | some l =>
        some { l with
          key := some ⟨!l.inFlow && l.indent == l.column, l.back.length, l.cursor⟩ }
  else some l

/-! ## Reading tokens -/

/-- Leave all blocks. -/
def leaveBlocks (l : Lexer) : Option Lexer :=
  (l.unindent (-1)).dropKey.map fun l => { l with keyAllowed := false }

def digitsOf (cs : List Char) : Nat :=
  cs.foldl (fun n c => n * 10 + (c.toNat - '0'.toNat)) 0

/-- A number of a version, of at most nine digits. -/
def versionNumber? (c : Cursor) : Option (Nat × Cursor) :=
  let (digits, next) := c.span Char.isDigit
  if digits.isEmpty || 9 < digits.length then none else some (digitsOf digits, next)

def version? (c : Cursor) : Option (Token × Cursor) := do
  let (major, c) ← versionNumber? (c.skipAll isBlank)
  if c.isAt '.' then
    let (minor, c) ← versionNumber? (c.skip 1)
    some (.version major minor, c)
  else none

def handleDeclaration? (c : Cursor) : Option (Token × Cursor) :=
  let c := c.skipAll isBlank
  if !c.isAt '!' then none
  else
    let (h, c) := Tag.handle c
    if !(h == ['!'] || Tag.isFullHandle h) || !c.isAtBlank then none
    else
      match Tag.uri? true (c.skipAll isBlank) with
      | none => none
      | some (start, c) =>
          if start.isEmpty || !endsWord c.peek? then none else some (.handle h start, c)

/-- Read a directive at its percent sign, and the rest of its line. -/
def directive? (c : Cursor) : Option (Token × Cursor) := do
  let (name, c) := (c.skip 1).span isNameChar
  if name.isEmpty || !endsWord c.peek? then none
  else
    let (token, c) ← if name == "YAML".toList then version? c
      else if name == "TAG".toList then handleDeclaration? c
      else none
    let c ← Block.endLine c
    some (token, c)

/-- Read the name of an anchor or an alias behind its sign. -/
def anchorName? (c : Cursor) : Option (String × Cursor) :=
  let (name, next) := (c.skip 1).span isNameChar
  if name.isEmpty || !(endsWord next.peek? || next.isAtAny "?:,]\x7d%@\x60".toList) then none
  else some (String.ofList name, next)

/-- Whether a plain scalar ends here. -/
def endsPlain (inFlow : Bool) (c : Cursor) : Bool :=
  (c.isAt ':' && endsWord (c.peekAt? 1)) || (inFlow && c.isAtAny ",[]\x7b\x7d".toList)

/-- Whether a colon stands inside a plain scalar where brackets do not allow it. -/
def isBadColon (inFlow : Bool) (c : Cursor) : Bool :=
  inFlow && c.isAt ':' && (c.peekAt? 1).any ",?[]\x7b\x7d".toList.contains

/-- Read the characters of a plain scalar up to white space or its end. -/
def plainWord (inFlow : Bool) : Nat → List Char → Cursor → Option (List Char × Cursor)
  | 0, back, c => some (back, c)
  | steps + 1, back, c =>
      match c.peek? with
      | none => some (back, c)
      | some char =>
          if endsWord (some char) then some (back, c)
          else if isBadColon inFlow c then none
          else if endsPlain inFlow c then some (back, c)
          else plainWord inFlow steps (char :: back) (c.skip 1)

/-- A plain scalar read up to a place, and the white space in front of the place. -/
structure Plain where
  back : List Char
  gap : Gap
  next : Cursor

/-- Read the words of a plain scalar inside a block with an indentation. The steps are more than the
characters left, and stay so because every word takes some, so they bound the inner loops too. -/
def plainFrom (inFlow : Bool) (outer : Int) : Nat → Plain → Option Plain
  | 0, p => some p
  | steps + 1, p =>
      if p.next.isAtEdge || p.next.isAt '#' then some p
      else
        match plainWord inFlow steps [] p.next with
        | none => none
        | some ([], _) => some p
        | some (word, c) =>
            let back := word ++ p.gap.text.reverse ++ p.back
            if c.isAtBlank || c.isAtBreak then
              match Gap.read (some (outer + 1)) steps .none c with
              | none => none
              | some (gap, c) =>
                  if !inFlow && (c.column : Int) < outer + 1 then some ⟨back, gap, c⟩
                  else plainFrom inFlow outer steps ⟨back, gap, c⟩
            else some ⟨back, .none, c⟩

/-- Read a plain scalar. -/
def plain? (l : Lexer) : Option Lexer :=
  match plainFrom l.inFlow l.indent (l.cursor.rest.length + 1) ⟨[], .none, l.cursor⟩ with
  | none => none
  | some p =>
      some { l.emit (.scalar (String.ofList p.back.reverse) true) p.next with
        keyAllowed := p.gap.broken }

/-- Whether a plain scalar may start here. -/
def startsPlain (inFlow : Bool) (c : Cursor) : Bool :=
  let next := c.peekAt? 1
  (!endsWord c.peek? && !c.isAtAny "-?:,[]\x7b\x7d#&*!|>'\"%@\x60".toList) ||
    (c.isAt '-' && !next.any isBlank) ||
    (!inFlow && (c.isAt '?' || c.isAt ':') && !endsWord next)

/-- Read a bracket that opens a collection. -/
def openFlow (l : Lexer) (token : Token) : Option Lexer :=
  l.noteKey.map fun l =>
    { l.emit token (l.cursor.skip 1) with
      key := none, keysAround := l.key :: l.keysAround, keyAllowed := true }

/-- Read a bracket that closes a collection. -/
def closeFlow (l : Lexer) (token : Token) : Option Lexer :=
  l.dropKey.map fun l =>
    let l := { l.emit token (l.cursor.skip 1) with keyAllowed := false }
    match l.keysAround with
    | [] => l
    | key :: around => { l with key, keysAround := around }

/-- Read the dash of an entry. -/
def entry (l : Lexer) : Option Lexer :=
  if !l.inFlow && !l.keyAllowed then none
  else
    (l.openBlock l.column l.back.length .sequenceBlock).dropKey.map fun l =>
      { l.emit .entry (l.cursor.skip 1) with keyAllowed := true }

/-- Read the question mark in front of a key. -/
def markedKey (l : Lexer) : Option Lexer :=
  if !l.inFlow && !l.keyAllowed then none
  else
    (l.openBlock l.column l.back.length .mappingBlock).dropKey.map fun l =>
      { l.emit .key (l.cursor.skip 1) with keyAllowed := !l.inFlow }

/-- Read the colon in front of a value. If a key may have started before it, it has. -/
def value (l : Lexer) : Option Lexer :=
  match l.key with
  | some k =>
      let l := (l.insert k.before [.key]).openBlock k.place.column k.before .mappingBlock
      some { l.emit .value (l.cursor.skip 1) with key := none, keyAllowed := false }
  | none =>
      if !l.inFlow && !l.keyAllowed then none
      else
        let l := l.openBlock l.column l.back.length .mappingBlock
        some { l.emit .value (l.cursor.skip 1) with keyAllowed := !l.inFlow }

/-- Read a token in front of which a key may start. -/
def keyed (l : Lexer) (token : Option (Token × Cursor)) : Option Lexer := do
  let l ← l.noteKey
  let (token, next) ← token
  some { l.emit token next with keyAllowed := false }

/-- Read one token. -/
def token (l : Lexer) : Option Lexer :=
  let c := l.cursor
  let next := c.peekAt? 1
  match c.peek? with
  | none => none
  | some char =>
      if c.column == 0 && char == '%' then do
        let l ← l.leaveBlocks
        let (token, c) ← directive? c
        some (l.emit token c)
      else if c.isAtMark '-' then l.leaveBlocks.map fun l => l.emit .documentStart (c.skip 3)
      else if c.isAtMark '.' then l.leaveBlocks.map fun l => l.emit .documentEnd (c.skip 3)
      else if char == '[' then l.openFlow .openBracket
      else if char == '\x7b' then l.openFlow .openBrace
      else if char == ']' then l.closeFlow .closeBracket
      else if char == '\x7d' then l.closeFlow .closeBrace
      else if char == ',' then
        l.dropKey.map fun l => { l.emit .comma (c.skip 1) with keyAllowed := true }
      else if char == '-' && endsWord next then l.entry
      else if char == '?' && (l.inFlow || endsWord next) then l.markedKey
      else if char == ':' && (l.inFlow || endsWord next) then l.value
      else if char == '*' then l.keyed ((anchorName? c).map fun (name, c) => (.alias name, c))
      else if char == '&' then l.keyed ((anchorName? c).map fun (name, c) => (.anchor name, c))
      else if char == '!' then l.keyed ((Tag.read l.inFlow c).map fun (tag, c) => (.tag tag, c))
      else if (char == '|' || char == '>') && !l.inFlow then do
        let l ← l.dropKey
        let (text, c) ← Block.read (char == '>') l.indent c
        some { l.emit (.scalar text false) c with keyAllowed := true }
      else if char == '\'' then
        l.keyed ((Quoted.read .single c).map fun (text, c) => (.scalar text false, c))
      else if char == '"' then
        l.keyed ((Quoted.read .double c).map fun (text, c) => (.scalar text false, c))
      else if startsPlain l.inFlow c then l.noteKey.bind plain?
      else none

/-- Read all tokens. The steps are at least two more than the characters left, and stay so because
every token takes some, so they bound the white space too. -/
def run : Nat → Lexer → Option (List Token)
  | 0, _ => none
  | steps + 1, l =>
      match (l.skipMark.skipSpace steps).freshKeys with
      | none => none
      | some l =>
          let l := l.unindent l.column
          if l.cursor.atEnd then
            l.leaveBlocks.map fun l => l.back.reverse
          else
            match l.token with
            | none => none
            | some l => run steps l

end Lexer

/-- Characters that a text may hold. -/
def isAllowed (c : Char) : Bool :=
  let n := c.toNat
  n == 9 || n == 10 || n == 13 || (0x20 ≤ n && n ≤ 0x7E) || n == 0x85 ||
    (0xA0 ≤ n && n ≤ 0xFFFD) || 0x10000 ≤ n

/-- The tokens of a text. -/
def Token.ofText? (text : String) : Option (List Token) :=
  if text.toList.all isAllowed then (Lexer.start text).run (text.toList.length + 2) else none

end Stepwise.Yaml
