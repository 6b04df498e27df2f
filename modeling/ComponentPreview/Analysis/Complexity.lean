/-!
# Complexity of a component

A limit is passed only by what lies strictly above it.
-/

namespace ComponentPreview

inductive Complexity
  | low
  | medium
  | high
  deriving DecidableEq, Repr

namespace Complexity

def label : Complexity → String
  | low => "low"
  | medium => "medium"
  | high => "high"

def classify (lines hooks imports : Int) : Complexity :=
  if 100 < lines || 5 < hooks || 10 < imports then .high
  else if 50 < lines || 3 < hooks || 5 < imports then .medium
  else .low

end Complexity

end ComponentPreview
