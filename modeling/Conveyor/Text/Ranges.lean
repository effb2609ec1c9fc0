/-!
# Classes of characters as ranges

The properties of the Unicode character database are given as ascending, disjoint, closed ranges of
code points. `Ranges.contains` searches them by halving, so that a table of a few hundred ranges is
no burden on long texts.
-/

namespace Conveyor.Text

/-- Ascending and disjoint closed ranges of code points. -/
abbrev Ranges := Array (Nat × Nat)

namespace Ranges

/-- Looks for `n` in the ranges at the places from `lo` up to, but not with, `hi`; `budget` bounds
the number of halvings and is never used up when it is at least `hi - lo`. -/
def search (r : Ranges) (n : Nat) : (budget lo hi : Nat) → Bool
  | 0, _, _ => false
  | budget + 1, lo, hi =>
    if lo < hi then
      let mid := (lo + hi) / 2
      match r[mid]? with
      | none => false
      | some (first, last) =>
        if n < first then search r n budget lo mid
        else if last < n then search r n budget (mid + 1) hi
        else true
    else false

/-- The code point is in one of the ranges. -/
def contains (r : Ranges) (n : Nat) : Bool :=
  search r n r.size 0 r.size

end Ranges

end Conveyor.Text
