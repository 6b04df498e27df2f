/-!
# Delivery of messages by session

A bus keeps the subscribers of each session in the order in which they came; a session without any
is not kept. A message goes to those who were subscribed when its delivery began, whatever they
change meanwhile. A bounded backlog holds what a slow reader has not taken yet and drops the oldest
when it is full.
-/

namespace ComponentPreview

structure Bus (κ : Type) where
  sessions : List (String × List κ) := []
  deriving DecidableEq, Repr

namespace Bus

variable {κ : Type} {σ : Type}

def empty : Bus κ := {}

def subscribers (bus : Bus κ) (session : String) : List κ :=
  match bus.sessions.find? (·.1 == session) with
  | some (_, present) => present
  | none => []

def count (bus : Bus κ) (session : String) : Nat :=
  (bus.subscribers session).length

/-- Gives a session its subscribers; an empty list removes the session. -/
def setSubscribers (session : String) (present : List κ) :
    List (String × List κ) → List (String × List κ)
  | [] => if present.isEmpty then [] else [(session, present)]
  | (other, kept) :: sessions =>
      if other == session then
        if present.isEmpty then sessions else (session, present) :: sessions
      else (other, kept) :: setSubscribers session present sessions

def subscribe (bus : Bus κ) (session : String) (subscriber : κ) : Bus κ :=
  ⟨setSubscribers session (bus.subscribers session ++ [subscriber]) bus.sessions⟩

/-- Removes the first subscription of a subscriber to a session, if there is one. -/
def unsubscribe [BEq κ] (bus : Bus κ) (session : String) (subscriber : κ) : Bus κ :=
  ⟨setSubscribers session ((bus.subscribers session).erase subscriber) bus.sessions⟩

/-- Calls subscribers one after the other and counts those that did not fail. -/
def deliver (react : κ → σ → σ × Bool) (subscribers : List κ) (state : σ) : σ × Nat :=
  subscribers.foldl
    (fun (state, delivered) subscriber =>
      let (state, accepted) := react subscriber state
      (state, if accepted then delivered + 1 else delivered))
    (state, 0)

/-- Delivers to the subscribers that a session has at the outset. -/
def publish (busOf : σ → Bus κ) (react : κ → σ → σ × Bool) (session : String) (state : σ) :
    σ × Nat :=
  deliver react ((busOf state).subscribers session) state

end Bus

structure Backlog (α : Type) where
  items : List α := []
  deriving DecidableEq, Repr

namespace Backlog

variable {α : Type}

def capacity : Nat := 100

def empty : Backlog α := {}

def push (backlog : Backlog α) (item : α) : Backlog α :=
  if backlog.items.length < capacity then ⟨backlog.items ++ [item]⟩
  else ⟨backlog.items.tail ++ [item]⟩

/-- Takes up to a number of items, the oldest first. -/
def take (backlog : Backlog α) (count : Nat) : List α × Backlog α :=
  (backlog.items.take count, ⟨backlog.items.drop count⟩)

theorem length_push_le (backlog : Backlog α) (item : α)
    (h : backlog.items.length ≤ capacity) : (backlog.push item).items.length ≤ capacity := by
  unfold push
  split
  · simp; omega
  · simp only [List.length_append, List.length_tail, List.length_cons, List.length_nil]
    have : 0 < capacity := by decide
    omega

end Backlog

end ComponentPreview
