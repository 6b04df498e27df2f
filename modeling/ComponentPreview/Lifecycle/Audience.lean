import ComponentPreview.Lifecycle.Bus
import ComponentPreview.Lifecycle.Message
import ComponentPreview.Named

/-!
# Listeners of a bus

A listener keeps the messages that reach it, in a record or in a bounded backlog, or fails. When a
message reaches it, it may end subscriptions and add a listener to its session; that concerns the
messages that come later. Listeners are known by the names of their subscriptions. A name that is
given again belongs to the new subscription; the old one stays on the bus and can no longer be
ended.
-/

namespace ComponentPreview

structure Listener where
  session : String
  keepsBacklog : Bool := false
  fails : Bool := false
  /-- Whose subscriptions end when a message comes. -/
  drops : List String := []
  /-- Who is subscribed when a message comes, unless already known. -/
  adds : Option String := none
  /-- The messages on record, the latest first. -/
  heard : List LifecycleMessage := []
  backlog : Backlog LifecycleMessage := .empty
  deriving DecidableEq, Repr

namespace Listener

/-- Takes a message, unless the listener fails. -/
def take (message : LifecycleMessage) (listener : Listener) : Listener :=
  if listener.fails then listener
  else if listener.keepsBacklog then { listener with backlog := listener.backlog.push message }
  else { listener with heard := message :: listener.heard }

/-- How many messages are on record or still in the backlog. -/
def count (listener : Listener) : Nat :=
  if listener.keepsBacklog then listener.backlog.items.length else listener.heard.length

end Listener

structure Audience where
  bus : Bus Nat := .empty
  listeners : List Listener := []
  /-- The session of each subscription and the number of its listener. -/
  subscriptions : Named (String × Nat) := []
  deriving DecidableEq, Repr

namespace Audience

def subscribe (audience : Audience) (id : String) (listener : Listener) : Audience :=
  let number := audience.listeners.length
  { audience with
    bus := audience.bus.subscribe listener.session number
    listeners := audience.listeners ++ [listener]
    subscriptions := audience.subscriptions.put id (listener.session, number) }

/-- Subscribes the listener of another subscription once more. -/
def subscribeAgain (audience : Audience) (id session other : String) : Audience :=
  match audience.subscriptions.get? other with
  | some (_, number) =>
      { audience with
        bus := audience.bus.subscribe session number
        subscriptions := audience.subscriptions.put id (session, number) }
  | none => audience.subscribe id { session }

def unsubscribe (audience : Audience) (id : String) : Audience :=
  match audience.subscriptions.get? id with
  | some (session, number) => { audience with bus := audience.bus.unsubscribe session number }
  | none => audience

def subscribeNew (audience : Audience) (session id : String) : Audience :=
  if (audience.subscriptions.get? id).isSome then audience
  else audience.subscribe id { session }

def react (message : LifecycleMessage) (number : Nat) (audience : Audience) : Audience × Bool :=
  match audience.listeners[number]? with
  | none => (audience, false)
  | some listener =>
      let audience :=
        { audience with listeners := audience.listeners.modify number (·.take message) }
      if listener.fails then (audience, false)
      else if listener.keepsBacklog then (audience, true)
      else
        let audience := listener.drops.foldl unsubscribe audience
        (listener.adds.elim audience (audience.subscribeNew listener.session), true)

def publish (audience : Audience) (message : LifecycleMessage) : Audience × Nat :=
  Bus.publish Audience.bus (react message) message.session audience

/-- The listener of a subscription. -/
def listener? (audience : Audience) (id : String) : Option Listener :=
  (audience.subscriptions.get? id).bind fun (_, number) => audience.listeners[number]?

/-- Takes up to a number of messages from a backlog; all of them without a number. -/
def drain (audience : Audience) (id : String) (count : Option Nat) :
    List LifecycleMessage × Audience :=
  match audience.subscriptions.get? id, audience.listener? id with
  | some (_, number), some listener =>
      let (items, backlog) := listener.backlog.take (count.getD listener.backlog.items.length)
      (items,
        { audience with listeners := audience.listeners.set number { listener with backlog } })
  | _, _ => ([], audience)

/-- The messages on record for each subscription without a backlog, the earliest first. -/
def records (audience : Audience) : Named (List LifecycleMessage) :=
  audience.subscriptions.filterMap fun (id, _) =>
    ((audience.listener? id).filter (!·.keepsBacklog)).map fun listener =>
      (id, listener.heard.reverse)

/-- How many messages each subscription has on record or still in its backlog. -/
def counts (audience : Audience) : Named Nat :=
  audience.subscriptions.filterMap fun (id, _) =>
    (audience.listener? id).map fun listener => (id, listener.count)

end Audience

end ComponentPreview
