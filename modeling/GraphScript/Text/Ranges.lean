/-
  GraphScript.Text.Ranges — a set of characters given by its turning points.

  The turning points increase; the set holds the code points from the first up to the second, from
  the third up to the fourth, and so on, so a code point belongs to it when an odd number of turning
  points lie at or below it.
-/

namespace GraphScript.Text

def inRanges (turns : List Nat) (c : Char) : Bool := (turns.takeWhile (· ≤ c.toNat)).length % 2 == 1

end GraphScript.Text
