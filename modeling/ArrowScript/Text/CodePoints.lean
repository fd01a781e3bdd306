/-!
# Sets of code points

A property of characters is given as a list of closed ranges of code points in
increasing order. Because the ranges are ordered, a search may stop at the first
range that begins beyond the code point.
-/

namespace ArrowScript.Text

/-- A set of code points as disjoint closed ranges in increasing order. -/
abbrev CodePoints := List (Nat × Nat)

/-- Membership of a code point in an ordered list of ranges. -/
def CodePoints.holds : CodePoints → Nat → Bool
  | [], _ => false
  | (first, last) :: rest, code =>
    if code < first then false else code ≤ last || CodePoints.holds rest code

end ArrowScript.Text
