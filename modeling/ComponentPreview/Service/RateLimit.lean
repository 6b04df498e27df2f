import ComponentPreview.Clock

/-!
# Rate limit

The limiter remembers when each key was admitted. A request is admitted if fewer than the maximum
were admitted within the window that ends now.
-/

namespace ComponentPreview

structure RateLimiter where
  admitted : List (String × List Instant) := []
  deriving DecidableEq, Repr

namespace RateLimiter

def empty : RateLimiter := {}

def timesOf (limiter : RateLimiter) (key : String) : List Instant :=
  ((limiter.admitted.find? (·.1 == key)).map Prod.snd).getD []

def setTimes (key : String) (times : List Instant) :
    List (String × List Instant) → List (String × List Instant)
  | [] => [(key, times)]
  | (other, kept) :: entries =>
      if other == key then (key, times) :: entries
      else (other, kept) :: setTimes key times entries

/-- Admits a request or refuses it, with a window that begins after `cutoff`; a refused key is known
from then on too. -/
def check (limiter : RateLimiter) (key : String) (maximum : Int) (cutoff now : Instant) :
    RateLimiter × Bool :=
  let recent := (limiter.timesOf key).filter (cutoff < ·)
  if maximum ≤ recent.length then (⟨setTimes key recent limiter.admitted⟩, false)
  else (⟨setTimes key (recent ++ [now]) limiter.admitted⟩, true)

/-- Forgets what was admitted up to `cutoff`, and keys of which nothing is left. -/
def forgetUntil (limiter : RateLimiter) (cutoff : Instant) : RateLimiter :=
  ⟨(limiter.admitted.map fun (key, times) => (key, times.filter (cutoff < ·))).filter
    fun entry => !entry.2.isEmpty⟩

end RateLimiter

end ComponentPreview
