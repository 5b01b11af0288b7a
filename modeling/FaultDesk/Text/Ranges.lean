/-!
Sets of characters given as a list of code point ranges in ascending order.
-/

namespace FaultDesk

/-- Whether a code point lies in one of the ranges, ends included. The ranges ascend, so the search
stops at the first that starts behind it. -/
def inRanges (code : Nat) : List (Nat × Nat) → Bool
  | [] => false
  | (first, last) :: rest =>
    if code < first then false else if code ≤ last then true else inRanges code rest

theorem inRanges_nil (code : Nat) : inRanges code [] = false := rfl

theorem inRanges_head {code first last : Nat} {rest : List (Nat × Nat)} (h : first ≤ code)
    (h' : code ≤ last) : inRanges code ((first, last) :: rest) = true := by
  simp [inRanges, Nat.not_lt.mpr h, h']

end FaultDesk
