/-!
# Sets of code points as sorted bounds

A set is written as the ascending list of the code points at which membership changes, so a
code point is a member exactly when an odd number of bounds lie at or below it.
-/

namespace ComponentPreview.Unicode

/-- How many bounds lie at or below `n`, by bisection of `[low, high)`. -/
def rankBetween (bounds : Array Nat) (n : Nat) : Nat → Nat → Nat → Nat
  | 0, low, _ => low
  | fuel + 1, low, high =>
      if low < high then
        let middle := (low + high) / 2
        if bounds.getD middle 0 ≤ n then
          rankBetween bounds n fuel (middle + 1) high
        else
          rankBetween bounds n fuel low middle
      else low

def rank (bounds : Array Nat) (n : Nat) : Nat :=
  rankBetween bounds n 16 0 bounds.size

def inBounds (bounds : Array Nat) (n : Nat) : Bool :=
  rank bounds n % 2 == 1

end ComponentPreview.Unicode
