/-!
# Sets of characters by their edges

A set of code points is given by the sorted list of the places where membership changes. A code
point is in the set when an odd number of edges lie at or below it.
-/

namespace Stepwise.Text

/-- Whether a code point lies behind an odd number of edges of a sorted list. -/
def insideEdges (edges : List Nat) (n : Nat) : Bool :=
  match edges with
  | [] => false
  | first :: rest => if n < first then false else !insideEdges rest n

end Stepwise.Text
