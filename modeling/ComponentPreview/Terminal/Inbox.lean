/-!
# Inboxes

What comes in from outside waits until its reader has its turn. A reader that waits is called by the
first item and then takes all there are; what comes in before the reader is there is lost.
-/

namespace ComponentPreview

inductive Reader
  | absent
  | waiting
  | called
  | busy
  deriving DecidableEq, Repr

structure Inbox (α : Type) where
  reader : Reader := .absent
  items : List α := []
  deriving DecidableEq, Repr

namespace Inbox

variable {α : Type}

def opened : Inbox α :=
  { reader := .waiting }

/-- Takes in an item, and tells whether the reader is called. -/
def put (inbox : Inbox α) (item : α) : Inbox α × Bool :=
  match inbox.reader with
  | .absent => (inbox, false)
  | .waiting => ({ reader := .called, items := inbox.items ++ [item] }, true)
  | .called | .busy => ({ inbox with items := inbox.items ++ [item] }, false)

theorem put_of_absent {inbox : Inbox α} (h : inbox.reader = .absent) (item : α) :
    inbox.put item = (inbox, false) := by
  simp [put, h]

theorem items_put {inbox : Inbox α} (h : inbox.reader ≠ .absent) (item : α) :
    (inbox.put item).1.items = inbox.items ++ [item] := by
  unfold put
  split <;> simp_all

end Inbox

end ComponentPreview
