/-!
# Character classes as ascending boundaries

A class of characters is written as the ascending list of code points at which membership
changes, starting outside the class. A character belongs to it if an odd number of the
boundaries are not above it.
-/

namespace StepGraph.Text

/-- Membership of a code point, given whether the points before the first boundary belong. -/
def insideAfter (point : Nat) : Bool → List Nat → Bool
  | inside, [] => inside
  | inside, boundary :: rest =>
    if point < boundary then inside else insideAfter point (!inside) rest

/-- Whether a character lies in the class with the given ascending boundaries. -/
def inRanges (boundaries : List Nat) (c : Char) : Bool :=
  insideAfter c.toNat false boundaries

end StepGraph.Text
