import ComponentPreview.Lifecycle.Message
import ComponentPreview.Proofs.Lifecycle.Bus
import Mathlib.Data.List.Induction
import Mathlib.Logic.Function.Basic

/-!
# Sessions of a bus

The callbacks of a bus are told the messages of their session. They may fail, but leave the bus
alone. So a session of the bus goes on as if there were no other: who is called with which message
and to what end, and what is counted, stays the same when all that concerns other sessions is left
out.
-/

namespace ComponentPreview

variable {κ τ : Type}

inductive Bus.Operation (κ : Type)
  | subscribe (session : String) (callback : κ)
  /-- The call that ends a subscription knows the session and the callback, and nothing else. -/
  | unsubscribe (session : String) (callback : κ)
  | publish (message : LifecycleMessage)
  | count (session : String)
  deriving DecidableEq, Repr

def Bus.Operation.session : Bus.Operation κ → String
  | subscribe session _ | unsubscribe session _ | count session => session
  | publish message => message.session

/-- A callback that was told a message, and whether it took it without failing. -/
structure Hearing (κ : Type) where
  callback : κ
  message : LifecycleMessage
  accepted : Bool
  deriving DecidableEq, Repr

/-- A bus and what came of it. -/
structure Station (κ τ : Type) where
  bus : Bus κ := .empty
  /-- What the callbacks of each session know. How later calls end may be part of it, so that a
  callback can fail at any call. -/
  minds : String → τ
  calls : List (Hearing κ) := []
  /-- The sessions of the messages that were published, and how many callbacks accepted each. -/
  delivered : List (String × Nat) := []
  /-- The sessions whose subscribers were counted, and how many there were. -/
  counted : List (String × Nat) := []

namespace Station

variable (hear : κ → LifecycleMessage → τ → τ × Bool)

def call (message : LifecycleMessage) (callback : κ) (station : Station κ τ) :
    Station κ τ × Bool :=
  let (mind, accepted) := hear callback message (station.minds message.session)
  ({ station with
      minds := Function.update station.minds message.session mind
      calls := station.calls ++ [⟨callback, message, accepted⟩] }, accepted)

def take [BEq κ] (station : Station κ τ) : Bus.Operation κ → Station κ τ
  | .subscribe session callback =>
      { station with bus := station.bus.subscribe session callback }
  | .unsubscribe session callback =>
      { station with bus := station.bus.unsubscribe session callback }
  | .publish message =>
      let (next, count) := Bus.publish Station.bus (call hear message) message.session station
      { next with delivered := next.delivered ++ [(message.session, count)] }
  | .count session =>
      { station with counted := station.counted ++ [(session, station.bus.count session)] }

/-- What comes of a sequence of operations, from an empty bus on. -/
def afterAll [BEq κ] (minds : String → τ) (operations : List (Bus.Operation κ)) : Station κ τ :=
  operations.foldl (take hear) { minds }

/-- Whether a session has come to the same at one station as at another where there is no other
session. -/
structure Agrees (session : String) (whole alone : Station κ τ) : Prop where
  subscribers : whole.bus.subscribers session = alone.bus.subscribers session
  mind : whole.minds session = alone.minds session
  calls : whole.calls.filter (·.message.session == session) = alone.calls
  delivered : whole.delivered.filter (·.1 == session) = alone.delivered
  counted : whole.counted.filter (·.1 == session) = alone.counted

variable {hear} {session : String} {message : LifecycleMessage} {whole alone : Station κ τ}

theorem agrees_start (minds : String → τ) (session : String) :
    Agrees session ({ minds } : Station κ τ) { minds } :=
  ⟨rfl, rfl, rfl, rfl, rfl⟩

/-! ## One message -/

variable (hear) in
theorem agrees_call (own : message.session = session) (callback : κ)
    (agrees : Agrees session whole alone) :
    Agrees session (call hear message callback whole).1 (call hear message callback alone).1 ∧
      (call hear message callback whole).2 = (call hear message callback alone).2 := by
  subst own
  have mind := agrees.mind
  refine ⟨⟨agrees.subscribers, ?_, ?_, agrees.delivered, agrees.counted⟩, ?_⟩
  · simp [call, mind]
  · simp [call, mind, List.filter_append, agrees.calls]
  · simp [call, mind]

variable (hear) in
/-- A call of another session is not noticed. -/
theorem agrees_call_of_ne (other : message.session ≠ session) (callback : κ)
    (agrees : Agrees session whole alone) :
    Agrees session (call hear message callback whole).1 alone := by
  refine ⟨agrees.subscribers, ?_, ?_, agrees.delivered, agrees.counted⟩
  · simp [call, agrees.mind, Ne.symm other]
  · simp [call, List.filter_append, agrees.calls, other]

theorem bus_deliver (callbacks : List κ) (station : Station κ τ) :
    (Bus.deliver (call hear message) callbacks station).1.bus = station.bus :=
  Bus.deliver_keeps Station.bus _ (fun _ _ => rfl) callbacks station

/-! ## One operation -/

variable [BEq κ]

theorem tidy_take {station : Station κ τ} (tidy : station.bus.Tidy) (operation : Bus.Operation κ) :
    (station.take hear operation).bus.Tidy := by
  cases operation with
  | subscribe session callback => exact Bus.tidy_setSubscribers tidy _ _
  | unsubscribe session callback => exact Bus.tidy_setSubscribers tidy _ _
  | publish message =>
      simp only [take, Bus.publish, bus_deliver]
      exact tidy
  | count session => exact tidy

theorem agrees_take {operation : Bus.Operation κ} (own : operation.session = session)
    (tidy : whole.bus.Tidy) (tidy' : alone.bus.Tidy) (agrees : Agrees session whole alone) :
    Agrees session (whole.take hear operation) (alone.take hear operation) := by
  obtain ⟨subscribers, mind, calls, delivered, counted⟩ := agrees
  cases operation with
  | subscribe name callback =>
      obtain rfl : name = session := own
      refine ⟨?_, mind, calls, delivered, counted⟩
      simp [take, Bus.subscribers_subscribe tidy, Bus.subscribers_subscribe tidy', subscribers]
  | unsubscribe name callback =>
      obtain rfl : name = session := own
      refine ⟨?_, mind, calls, delivered, counted⟩
      simp [take, Bus.subscribers_unsubscribe tidy, Bus.subscribers_unsubscribe tidy', subscribers]
  | publish message =>
      obtain rfl : message.session = session := own
      obtain ⟨agrees, count⟩ := Bus.deliver_rel (Agrees message.session)
        (fun callback _ _ agrees => agrees_call hear rfl callback agrees)
        (alone.bus.subscribers message.session) ⟨subscribers, mind, calls, delivered, counted⟩
      simp only [take, Bus.publish, subscribers]
      refine ⟨agrees.subscribers, agrees.mind, agrees.calls, ?_, agrees.counted⟩
      simp [List.filter_append, agrees.delivered, count]
  | count name =>
      obtain rfl : name = session := own
      refine ⟨subscribers, mind, calls, delivered, ?_⟩
      simp [take, List.filter_append, counted, Bus.count, subscribers]

/-- An operation on another session is not noticed. -/
theorem agrees_take_of_ne {operation : Bus.Operation κ} (other : operation.session ≠ session)
    (tidy : whole.bus.Tidy) (agrees : Agrees session whole alone) :
    Agrees session (whole.take hear operation) alone := by
  cases operation with
  | subscribe name callback =>
      have apart : session ≠ name := Ne.symm other
      refine ⟨?_, agrees.mind, agrees.calls, agrees.delivered, agrees.counted⟩
      simp [take, Bus.subscribers_subscribe tidy, apart, agrees.subscribers]
  | unsubscribe name callback =>
      have apart : session ≠ name := Ne.symm other
      refine ⟨?_, agrees.mind, agrees.calls, agrees.delivered, agrees.counted⟩
      simp [take, Bus.subscribers_unsubscribe tidy, apart, agrees.subscribers]
  | publish message =>
      have other : message.session ≠ session := other
      have agrees := Bus.deliver_induction (Agrees session · alone)
        (fun callback _ agrees => agrees_call_of_ne hear other callback agrees)
        (whole.bus.subscribers message.session) agrees
      refine ⟨agrees.subscribers, agrees.mind, agrees.calls, ?_, agrees.counted⟩
      simp [take, Bus.publish, List.filter_append, agrees.delivered, other]
  | count name =>
      have other : name ≠ session := other
      refine ⟨agrees.subscribers, agrees.mind, agrees.calls, agrees.delivered, ?_⟩
      simp [take, List.filter_append, agrees.counted, other]

/-! ## Operations in a row -/

variable (hear) (minds : String → τ) (operations : List (Bus.Operation κ))

theorem afterAll_concat (operation : Bus.Operation κ) :
    afterAll hear minds (operations ++ [operation]) =
      (afterAll hear minds operations).take hear operation := by
  simp [afterAll]

theorem tidy_afterAll : (afterAll hear minds operations).bus.Tidy := by
  induction operations using List.reverseRecOn with
  | nil => exact Bus.tidy_empty
  | append_singleton operations operation ih =>
      rw [afterAll_concat]
      exact tidy_take ih operation

theorem agrees_afterAll (session : String) :
    Agrees session (afterAll hear minds operations)
      (afterAll hear minds (operations.filter (·.session == session))) := by
  induction operations using List.reverseRecOn with
  | nil => exact agrees_start minds session
  | append_singleton operations operation ih =>
      have tidy := tidy_afterAll hear minds operations
      have tidy' := tidy_afterAll hear minds (operations.filter (·.session == session))
      rw [afterAll_concat, List.filter_append]
      by_cases own : operation.session = session
      · have kept : [operation].filter (·.session == session) = [operation] := by simp [own]
        rw [kept, afterAll_concat]
        exact agrees_take own tidy tidy' ih
      · have dropped : [operation].filter (·.session == session) = [] := by simp [own]
        rw [dropped, List.append_nil]
        exact agrees_take_of_ne own tidy ih

/-- For each session, the calls of its callbacks and how they end, how many callbacks accept each of
its messages, and the counts of its subscribers are what they are when all that is done to other
sessions is left out; and a session is kept just while it has subscribers. -/
theorem sessions_are_apart :
    (∀ session, Agrees session (afterAll hear minds operations)
      (afterAll hear minds (operations.filter (·.session == session)))) ∧
    ∀ session, session ∈ (afterAll hear minds operations).bus.sessions.map Prod.fst ↔
      0 < (afterAll hear minds operations).bus.count session :=
  ⟨agrees_afterAll hear minds operations,
    Bus.mem_sessions_iff (tidy_afterAll hear minds operations)⟩

end Station

end ComponentPreview
