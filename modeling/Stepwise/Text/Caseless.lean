/-!
# Spelling without case

Two characters spell the same letter when they agree after simple case folding. Of the characters
beyond ASCII only the Kelvin sign and the long s fold to ASCII letters.
-/

namespace Stepwise.Text

/-- The lower case letter of an ASCII letter, of the Kelvin sign and of the long s; any other
character is itself. -/
def fold (c : Char) : Char :=
  if c = '\u212a' then 'k'
  else if c = '\u017f' then 's'
  else c.toLower

/-- A character that spells an ASCII letter. -/
def isLetter (c : Char) : Bool :=
  let f := fold c
  'a' ≤ f && f ≤ 'z'

/-- A character that spells an ASCII letter, or an ASCII digit. -/
def isLetterOrDigit (c : Char) : Bool :=
  isLetter c || c.isDigit

/-- Split a text that starts with a spelling of a word, given in lower case. -/
def spelled? : List Char → List Char → Option (List Char × List Char)
  | [], cs => some ([], cs)
  | _ :: _, [] => none
  | w :: ws, c :: cs =>
      if fold c = w then (spelled? ws cs).map fun (taken, rest) => (c :: taken, rest) else none

/-- Whether a spelling of a word stands somewhere in a text. -/
def spells (word : List Char) : List Char → Bool
  | [] => word.isEmpty
  | c :: cs => (spelled? word (c :: cs)).isSome || spells word cs

/-- The characters in front that belong to a class, and the rest. -/
def run (inClass : Char → Bool) (cs : List Char) : List Char × List Char :=
  (cs.takeWhile inClass, cs.dropWhile inClass)

/-- The characters in front that belong to a class, when there is one, and the rest. -/
def run? (inClass : Char → Bool) (cs : List Char) : Option (List Char × List Char) :=
  match run inClass cs with
  | ([], _) => none
  | (c :: taken, rest) => some (c :: taken, rest)

end Stepwise.Text
