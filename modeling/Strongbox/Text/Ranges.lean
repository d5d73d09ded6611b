/-!
# Code point ranges

A character property stored as sorted, disjoint, inclusive ranges of code points, looked up
by halving the table.
-/

namespace Strongbox.Text

/-- Whether `c` lies in one of the ranges `table[lo] … table[hi - 1]`, found by halving; the
`fuel` bounds the halvings and twenty-four of them cover any table of fewer than 2²⁴ ranges. -/
def searchRanges (table : Array (Nat × Nat)) (c : Nat) : Nat → Nat → Nat → Bool
  | 0, _, _ => false
  | fuel + 1, lo, hi =>
    if lo < hi then
      let mid := (lo + hi) / 2
      let r := table.getD mid (0, 0)
      if c < r.1 then searchRanges table c fuel lo mid
      else if r.2 < c then searchRanges table c fuel (mid + 1) hi
      else true
    else false

/-- Whether `c` lies in one of the sorted, disjoint ranges of `table`. -/
def inRanges (table : Array (Nat × Nat)) (c : Nat) : Bool := searchRanges table c 24 0 table.size

end Strongbox.Text
