/-!
# A place in a text

A cursor is the rest of a text together with its place: how many characters and lines stand in
front, and the column in the line.
-/

namespace Stepwise.Yaml

/-- Characters that end a line. -/
def isBreak (c : Char) : Bool :=
  c == '\n' || c == '\r' || c == '\u0085' || c == '\u2028' || c == '\u2029'

/-- The space and the tab. -/
def isBlank (c : Char) : Bool := c == ' ' || c == '\t'

/-- Characters of anchors, handles and directives. -/
def isNameChar (c : Char) : Bool :=
  c.isAlphanum || c == '_' || c == '-'

/-- Whether a word ends in front of a character, or at the end of the text. -/
def endsWord : Option Char → Bool
  | none => true
  | some c => isBlank c || isBreak c

/-- The rest of a text and its place. -/
structure Cursor where
  rest : List Char
  index : Nat
  line : Nat
  column : Nat

namespace Cursor

/-- The start of a text. -/
def start (text : String) : Cursor := ⟨text.toList, 0, 0, 0⟩

def peek? (c : Cursor) : Option Char := c.rest.head?

/-- The character so many places further on. -/
def peekAt? (c : Cursor) (n : Nat) : Option Char := c.rest[n]?

def atEnd (c : Cursor) : Bool := c.rest.isEmpty

/-- Whether a character stands here. -/
def isAt (c : Cursor) (char : Char) : Bool := c.peek? == some char

/-- Whether one of some characters stands here. -/
def isAtAny (c : Cursor) (chars : List Char) : Bool :=
  match c.peek? with
  | some char => chars.contains char
  | none => false

def isAtBlank (c : Cursor) : Bool :=
  match c.peek? with
  | some char => isBlank char
  | none => false

def isAtBreak (c : Cursor) : Bool :=
  match c.peek? with
  | some char => isBreak char
  | none => false

/-- Go so many characters further on in the same line. -/
def skip (c : Cursor) (n : Nat) : Cursor :=
  ⟨c.rest.drop n, c.index + n, c.line, c.column + n⟩

/-- Read the characters of a class, none of which ends a line. -/
def span (c : Cursor) (inClass : Char → Bool) : List Char × Cursor :=
  let taken := c.rest.takeWhile inClass
  (taken, c.skip taken.length)

/-- Go to the first character that does not belong to a class. -/
def skipAll (c : Cursor) (inClass : Char → Bool) : Cursor :=
  (c.span inClass).2

/-- Go to the end of the line. -/
def skipToBreak (c : Cursor) : Cursor :=
  c.skipAll fun char => !isBreak char

/-- Read a line break, if there is one. All breaks but the two Unicode separators are the same. -/
def readBreak (c : Cursor) : List Char × Cursor :=
  match c.rest with
  | '\r' :: '\n' :: rest => (['\n'], ⟨rest, c.index + 2, c.line + 1, 0⟩)
  | char :: rest =>
      if isBreak char then
        (if char == '\u2028' || char == '\u2029' then [char] else ['\n'],
          ⟨rest, c.index + 1, c.line + 1, 0⟩)
      else ([], c)
  | [] => ([], c)

/-- Whether three characters that mark the edge of a document stand here as a word of their own at
the start of a line. -/
def isAtMark (c : Cursor) (char : Char) : Bool :=
  c.column == 0 && c.isAt char && c.peekAt? 1 == some char && c.peekAt? 2 == some char &&
    endsWord (c.peekAt? 3)

/-- Whether the edge of a document stands here. -/
def isAtEdge (c : Cursor) : Bool :=
  c.isAtMark '-' || c.isAtMark '.'

end Cursor

/-! ## Gaps -/

/-- The white space inside a scalar: blanks in one line, or the breaks between two lines. -/
structure Gap where
  blanks : List Char
  /-- Whether a line has ended. -/
  broken : Bool
  first : List Char
  others : List Char

namespace Gap

def none : Gap := ⟨[], false, [], []⟩

/-- A gap behind a line end that was taken away. -/
def joined : Gap := ⟨[], true, [], []⟩

/-- What a gap stands for: a single break is a space, and of several the first is dropped. -/
def text (g : Gap) : List Char :=
  if g.broken then
    if g.first == ['\n'] then if g.others.isEmpty then [' '] else g.others
    else g.first ++ g.others
  else g.blanks

/-- Read the white space at a cursor. Where a least column is given, a tab in front of it that
indents a line is an error. The length of the text bounds the steps. -/
def read (leastColumn : Option Int) : Nat → Gap → Cursor → Option (Gap × Cursor)
  | 0, g, c => some (g, c)
  | steps + 1, g, c =>
      match c.peek? with
      | Option.none => some (g, c)
      | some char =>
          if isBlank char then
            if g.broken then
              if char == '\t' && (leastColumn.any fun least => decide ((c.column : Int) < least))
              then Option.none
              else read leastColumn steps g (c.skip 1)
            else read leastColumn steps { g with blanks := g.blanks ++ [char] } (c.skip 1)
          else if isBreak char then
            let (ending, next) := c.readBreak
            if g.broken then read leastColumn steps { g with others := g.others ++ ending } next
            else read leastColumn steps ⟨[], true, ending, []⟩ next
          else some (g, c)

end Gap

end Stepwise.Yaml
