/-!
Sets of characters, given as ascending ranges of code points.
-/

namespace Calculator

namespace Text

/-- Whether a code point lies in one of the ranges; they ascend, so the search may stop early. -/
def inRanges (code : Nat) : List (Nat × Nat) → Bool
  | [] => false
  | (first, last) :: rest =>
    if code < first then false else code ≤ last || inRanges code rest

end Text

end Calculator
