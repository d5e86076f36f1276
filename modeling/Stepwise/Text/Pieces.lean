/-!
# Pieces of a text

A text cut at every occurrence of a separator. There is always one piece more than there are
separators, so a text without any is one piece, and pieces can be empty.
-/

namespace Stepwise.Text

/-- The pieces between the separators. -/
def pieces (separator : Char) : List Char → List (List Char)
  | [] => [[]]
  | c :: rest =>
      match c == separator, pieces separator rest with
      | true, found => [] :: found
      | false, [] => [[c]]
      | false, piece :: found => (c :: piece) :: found

end Stepwise.Text
