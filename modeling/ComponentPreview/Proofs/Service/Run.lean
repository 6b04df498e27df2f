import ComponentPreview.Proofs.Lifecycle.Bus
import ComponentPreview.Service.App

/-!
# Runs of the service

Requests, frames and the clock reach the service in any order. After each of them everything that
waits for a connection is sent.
-/

namespace ComponentPreview

/-- The body of a request: a value, or bytes that are to be read as one. -/
inductive Payload
  | value (body : Option Json)
  | bytes (content : List UInt8)

def Payload.submission : Payload → Except Submission.Refusal Submission
  | value body => Submission.ofJson body
  | bytes content => Submission.ofBytes content

/-- The preview that a response shows. -/
structure Posted where
  session : String
  version : Int
  componentName : String
  html : String
  deriving DecidableEq, Repr

namespace Response

/-- The preview in the body of a response with status 200, if there is one. -/
def posted? : Response → Option Posted
  | ⟨200, _, .json body⟩ =>
      match (body.get "metadata").get "sessionId", (body.get "metadata").get "version",
        (body.get "analysis").get "componentName", body.get "previewHTML" with
      | .str session, .int version, .str componentName, .str html =>
          some ⟨session, version, componentName, html⟩
      | _, _, _, _ => none
  | _ => none

end Response

namespace App

inductive Event
  | http (method : String) (path : List Char) (payload : Payload) (address : String)
  | connect (session : String)
  | send (number : Nat) (text : List Char)
  | disconnect (number : Nat)
  | advance (span : Int)
  | start
  | stop
  /-- A cleanup comes out of turn. -/
  | clean
  | assign (name : String) (value : Json)

def initial (settings : Settings) : App :=
  { settings }

/-- What an event comes to before anything is sent, and the response to it if it is a request. -/
def act (app : App) : Event → App × Option Response
  | .http method path payload address =>
      let (app, response) := app.handle ⟨method, path, payload.submission, address⟩
      (app, some response)
  | .connect session => ((app.connect session).1, none)
  | .send number text => (app.receive number text, none)
  | .disconnect number => (app.disconnect number, none)
  | .advance span => ((app.advance span).1, none)
  | .start => (app.start.1, none)
  | .stop => (app.stop.1, none)
  | .clean => (app.clean.1, none)
  | .assign name value => ({ app with settings := app.settings.assign name value }, none)

def frame (message : LifecycleMessage) : String :=
  message.encode.print true

/-- One event of a run and the service that it reaches. -/
structure Turn where
  before : App
  event : Event

namespace Turn

variable (turn : Turn)

def acted : App :=
  (turn.before.act turn.event).1

def after : App :=
  turn.acted.flush.1

def response? : Option Response :=
  (turn.before.act turn.event).2

def posted? : Option Posted :=
  turn.response?.bind Response.posted?

def sent : List (Nat × List String) :=
  turn.acted.flush.2.map fun (number, messages) => (number, messages.map frame)

end Turn

def run (app : App) : List Event → List Turn
  | [] => []
  | event :: events => ⟨app, event⟩ :: run (Turn.after ⟨app, event⟩) events

def afterAll (app : App) (events : List Event) : App :=
  events.foldl (fun app event => Turn.after ⟨app, event⟩) app

variable {app : App}

theorem run_append (earlier later : List Event) :
    app.run (earlier ++ later) = app.run earlier ++ (app.afterAll earlier).run later := by
  induction earlier generalizing app with
  | nil => rfl
  | cons event earlier ih =>
      rw [List.cons_append, run, run, ih, List.cons_append]
      rfl

theorem afterAll_append (earlier later : List Event) :
    app.afterAll (earlier ++ later) = (app.afterAll earlier).afterAll later :=
  List.foldl_append

/-- What every turn with an event of some kind keeps holds throughout a run of such events. -/
theorem invariant_of_events {motive : App → Prop} (isMeant : Event → Prop)
    (step : ∀ turn : Turn, isMeant turn.event → motive turn.before → motive turn.after)
    {events : List Event} (meant : ∀ event ∈ events, isMeant event) (h : motive app) :
    motive (app.afterAll events) ∧
      ∀ turn ∈ app.run events, isMeant turn.event ∧ motive turn.before := by
  induction events generalizing app with
  | nil => exact ⟨h, fun _ mem => nomatch mem⟩
  | cons event events ih =>
      have first := meant event List.mem_cons_self
      obtain ⟨last, each⟩ := ih (fun event mem => meant event (List.mem_cons_of_mem _ mem))
        (step ⟨app, event⟩ first h)
      refine ⟨last, ?_⟩
      intro turn mem
      rw [run, List.mem_cons] at mem
      rcases mem with rfl | mem
      · exact ⟨first, h⟩
      · exact each turn mem

/-- What every turn keeps holds throughout a run. -/
theorem invariant {motive : App → Prop}
    (step : ∀ turn : Turn, motive turn.before → motive turn.after)
    (events : List Event) (h : motive app) :
    motive (app.afterAll events) ∧ ∀ turn ∈ app.run events, motive turn.before := by
  obtain ⟨last, each⟩ := invariant_of_events (fun _ => True) (fun turn _ => step turn)
    (fun event (_ : event ∈ events) => trivial) h
  exact ⟨last, fun turn mem => (each turn mem).2⟩

/-! ## What events leave alone -/

/-- What cleanups may do to the store: they drop sessions, once for each that comes due. -/
def dropped (store : Store) (cutoffs : List Instant) : Store :=
  cutoffs.foldl (fun store cutoff => (store.dropBefore cutoff).1) store

/-- The parts of the service that the relay consists of. -/
structure SameRelay (before after : App) : Prop where
  bus_eq : after.bus = before.bus
  connections_eq : after.connections = before.connections
  nextConnection_eq : after.nextConnection = before.nextConnection

/-- An operation that drops sessions at most and leaves the relay alone. -/
structure Tidies (before after : App) : Prop where
  store : ∃ cutoffs, after.store = dropped before.store cutoffs
  relay : SameRelay before after

namespace Tidies

variable {first second third : App}

theorem of_eq (store_eq : second.store = first.store) (relay : SameRelay first second) :
    Tidies first second :=
  ⟨⟨[], store_eq⟩, relay⟩

theorem trans (left : Tidies first second) (right : Tidies second third) : Tidies first third := by
  obtain ⟨earlier, earlier_eq⟩ := left.store
  obtain ⟨later, later_eq⟩ := right.store
  refine ⟨⟨earlier ++ later, ?_⟩, right.relay.bus_eq.trans left.relay.bus_eq,
    right.relay.connections_eq.trans left.relay.connections_eq,
    right.relay.nextConnection_eq.trans left.relay.nextConnection_eq⟩
  rw [later_eq, earlier_eq, dropped, dropped, dropped, List.foldl_append]

end Tidies

theorem tidies_clean (app : App) : Tidies app app.clean.1 := by
  unfold clean
  dsimp only
  split
  · exact .of_eq rfl ⟨rfl, rfl, rfl⟩
  · next oldest _ => exact ⟨⟨[oldest], rfl⟩, rfl, rfl, rfl⟩

theorem tidies_start (app : App) : Tidies app app.start.1 :=
  tidies_clean app

theorem tidies_stop (app : App) : Tidies app app.stop.1 := by
  unfold stop
  split
  · exact .of_eq rfl ⟨rfl, rfl, rfl⟩
  · exact .of_eq rfl ⟨rfl, rfl, rfl⟩

theorem tidies_cleanUntil (finish : Instant) (bound : Nat) (app : App) (printed : String) :
    Tidies app (cleanUntil finish bound app printed).1 := by
  induction bound generalizing app printed with
  | zero => exact .of_eq rfl ⟨rfl, rfl, rfl⟩
  | succ bound ih =>
      unfold cleanUntil
      split
      · next due _ =>
          split
          · have set : Tidies app { app with now := due } := .of_eq rfl ⟨rfl, rfl, rfl⟩
            exact (set.trans (tidies_clean _)).trans (ih _ _)
          · exact .of_eq rfl ⟨rfl, rfl, rfl⟩
      · exact .of_eq rfl ⟨rfl, rfl, rfl⟩

theorem tidies_advance (app : App) (span : Int) : Tidies app (app.advance span).1 := by
  have cleaned :=
    tidies_cleanUntil (app.now + span) (span / cleanupInterval + 1).toNat app ""
  exact cleaned.trans (.of_eq rfl ⟨rfl, rfl, rfl⟩)

theorem sameRelay_submit (app : App) (address : String)
    (submission : Except Submission.Refusal Submission) :
    SameRelay app (app.submit address submission).1 := by
  unfold submit
  split
  · exact ⟨rfl, rfl, rfl⟩
  · exact ⟨rfl, rfl, rfl⟩
  · dsimp only
    split
    · exact ⟨rfl, rfl, rfl⟩
    · exact ⟨rfl, rfl, rfl⟩

theorem store_disconnect (app : App) (number : Nat) :
    (app.disconnect number).store = app.store := by
  unfold disconnect
  split <;> rfl

/-- Frames change what disconnecting and queueing change. -/
theorem receive_keeps {β : Type} (view : App → β)
    (disconnects : ∀ app number, view (disconnect app number) = view app)
    (enqueues : ∀ message number app, view (enqueue message number app).1 = view app)
    (app : App) (number : Nat) (text : List Char) : view (app.receive number text) = view app := by
  unfold receive
  split
  · rfl
  · split
    · split
      · exact disconnects app number
      · rfl
    · dsimp only
      split
      · next message _ => exact Bus.deliver_keeps view (enqueue message) (enqueues message) _ _
      · rfl

theorem store_receive (app : App) (number : Nat) (text : List Char) :
    (app.receive number text).store = app.store :=
  receive_keeps App.store store_disconnect (fun _ _ _ => rfl) app number text

theorem posted?_version (app : App) (session : String) : (app.version session).posted? = none := by
  unfold version
  split <;> rfl

theorem posted?_page (app : App) (session : String) : (app.page session).posted? = none := by
  unfold page
  split <;> rfl

/-- A request is a submission, or it changes nothing and its response shows no new preview. -/
theorem handle_cases (app : App) (request : HttpRequest) :
    (request.method = "POST" ∧ Route.ofPath? request.path = some .submit ∧
      app.handle request = app.submit request.address request.submission) ∨
    ((app.handle request).1 = app ∧ (app.handle request).2.posted? = none) := by
  unfold handle
  split
  · next route found =>
      split
      · exact .inr ⟨rfl, rfl⟩
      · next allowed =>
          split
          · exact .inl ⟨by simpa [Route.method] using allowed, found, rfl⟩
          · exact .inr ⟨rfl, posted?_version app _⟩
          · exact .inr ⟨rfl, posted?_page app _⟩
          · exact .inr ⟨rfl, rfl⟩
  · split
    · exact .inr ⟨rfl, rfl⟩
    · exact .inr ⟨rfl, rfl⟩

theorem sameRelay_handle (app : App) (request : HttpRequest) :
    SameRelay app (app.handle request).1 := by
  rcases app.handle_cases request with ⟨-, -, submitted⟩ | ⟨same, -⟩
  · rw [submitted]
    exact sameRelay_submit app _ _
  · rw [same]
    exact ⟨rfl, rfl, rfl⟩

end App

end ComponentPreview
