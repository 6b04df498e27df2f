/-!
# Schedules

Work is done in rounds. A round takes up what was posted during the one before and then what has
become due, in order of time. Work that is held is either an alarm, done in the round that takes it
up, or a sleeper, which that round only wakes, so that it is done in the next. Time moves on only
when nothing is left to do.
-/

namespace ComponentPreview

structure Held (ι : Type) where
  due : Int
  isSleeper : Bool
  work : ι
  deriving DecidableEq, Repr

/-- What a round does in one turn. -/
inductive Turn (ι : Type)
  | perform (work : ι)
  | wake (work : ι)
  deriving DecidableEq, Repr

/-- The work that a turn would wake. -/
def Turn.sleeper? : Turn ι → Option ι
  | perform _ => none
  | wake work => some work

def Turn.ofHeld (held : Held ι) : Turn ι :=
  if held.isSleeper then .wake held.work else .perform held.work

/-- The time in microseconds, what is left of the round, what is posted for the next one, and what
is held, in order of time. -/
structure Schedule (ι : Type) where
  now : Int := 0
  round : List (Turn ι) := []
  posted : List ι := []
  held : List (Held ι) := []
  deriving DecidableEq, Repr

namespace Schedule

variable {ι : Type}

/-- Puts held work behind all that is due no later. -/
def insert (entry : Held ι) : List (Held ι) → List (Held ι)
  | [] => [entry]
  | other :: held =>
      if other.due ≤ entry.due then other :: insert entry held else entry :: other :: held

def post (schedule : Schedule ι) (work : ι) : Schedule ι :=
  { schedule with posted := schedule.posted ++ [work] }

/-- Sets an alarm that goes off after a number of microseconds. -/
def alarm (schedule : Schedule ι) (delay : Int) (work : ι) : Schedule ι :=
  { schedule with held := insert ⟨schedule.now + delay, false, work⟩ schedule.held }

/-- Lets work sleep for a number of microseconds. Without any it is posted. -/
def hold (schedule : Schedule ι) (delay : Int) (work : ι) : Schedule ι :=
  if 0 < delay then
    { schedule with held := insert ⟨schedule.now + delay, true, work⟩ schedule.held }
  else schedule.post work

/-- Wakes sleepers before it is their time. -/
def hurry (schedule : Schedule ι) (isMeant : ι → Bool) : Schedule ι :=
  let isHurried (held : Held ι) : Bool := held.isSleeper && isMeant held.work
  let waking := (schedule.round.filterMap Turn.sleeper?).filter isMeant
  { schedule with
    round := schedule.round.filter fun turn => !turn.sleeper?.any isMeant
    posted := schedule.posted ++ waking ++ (schedule.held.filter isHurried).map Held.work
    held := schedule.held.filter (!isHurried ·) }

/-- Begins the next round, if there is anything for it. -/
def begin? (schedule : Schedule ι) : Option (Schedule ι) :=
  let (due, held) := schedule.held.span (·.due ≤ schedule.now)
  let round := schedule.posted.map Turn.perform ++ due.map Turn.ofHeld
  if round.isEmpty then none else some { schedule with round, posted := [], held }

/-- Takes a turn: what is left of the schedule, and the work to be done if there is any. -/
def turn? (schedule : Schedule ι) : Option (Option ι × Schedule ι) :=
  match schedule.round with
  | .perform work :: round => some (some work, { schedule with round })
  | .wake work :: round => some (none, { schedule with round }.post work)
  | [] => schedule.begin?.map fun schedule => (none, schedule)

/-- Moves time on to what is due next. -/
def wake? (schedule : Schedule ι) : Option (Schedule ι) :=
  schedule.held.head?.map fun first => { schedule with now := max schedule.now first.due }

/-- The same, unless it is due only after `stop`. -/
def wakeBy? (schedule : Schedule ι) (stop : Int) : Option (Schedule ι) :=
  schedule.wake?.filter (·.now ≤ stop)

theorem mem_insert {entry other : Held ι} {held : List (Held ι)} :
    other ∈ insert entry held ↔ other = entry ∨ other ∈ held := by
  induction held with
  | nil => simp [insert]
  | cons first held ih =>
      unfold insert
      split
      · simp only [List.mem_cons, ih]
        grind
      · simp

end Schedule

end ComponentPreview
