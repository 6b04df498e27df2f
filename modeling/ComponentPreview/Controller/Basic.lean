import ComponentPreview.Breakdown
import ComponentPreview.Config
import ComponentPreview.Json.Display
import ComponentPreview.Lifecycle.Message
import ComponentPreview.Stub.Synthesis

/-!
# The state of a preview session

A controller turns edits into requests, each with a version number one above the last. Its work is
cut into jobs; a job that is no longer wanted when its turn comes does nothing. What the rest of
the program has to do or to know is said in notices, in order.
-/

namespace ComponentPreview

inductive Phase
  | idle
  | requesting
  | rendering
  | ready
  | errored
  deriving DecidableEq, Repr

def Phase.label : Phase → String
  | idle => "idle"
  | requesting => "requesting"
  | rendering => "rendering"
  | ready => "ready"
  | errored => "errored"

structure Failure where
  kind : FailureKind
  message : Json
  version : Nat
  suggestions : List Json

def Failure.encode (failure : Failure) : Json :=
  .obj [
    ("kind", .str failure.kind.label),
    ("message", failure.message),
    ("version", .ofNat failure.version),
    ("suggestions", .arr failure.suggestions)
  ]

/-- A length of time in milliseconds. It may be given as a flag, where true is one. -/
inductive Milliseconds
  | count (value : Int)
  | flag (isOn : Bool)
  deriving DecidableEq, Repr

namespace Milliseconds

def value : Milliseconds → Int
  | count value => value
  | flag isOn => if isOn then 1 else 0

def encode : Milliseconds → Json
  | count value => .int value
  | flag isOn => .bool isOn

def ofJson? : Json → Option Milliseconds
  | .int value => some (.count value)
  | .bool isOn => some (.flag isOn)
  | _ => none

def microseconds (time : Milliseconds) : Int :=
  1000 * time.value

end Milliseconds

/-- Whom the answer to a request is for: a job, or whoever asked for a refresh. -/
inductive Asker
  | job (number : Nat)
  | caller (name : String)
  deriving DecidableEq, Repr

inductive AnswerError
  | transport (reason : String)
  | broken (breakdown : Breakdown)

/-- The body of an answer, or why there is none. -/
abbrev Answer := Except AnswerError Json

structure Request where
  code : String
  version : Nat
  options : List (String × Json)
  asker : Asker

inductive Job
  | openDebounce (number : Nat)
  | closeDebounce (number : Nat)
  | request (number : Nat)
  | refresh (caller : String)
  | answer (version : Nat) (asker : Asker) (answer : Answer)
  | retire (number : Nat)
  | openDeadline (number version : Nat)
  | closeDeadline (number version : Nat)
  | attend (waiter : String)

/-- The number of a job that can be called off. -/
def Job.number? : Job → Option Nat
  | openDebounce number | closeDebounce number | request number => some number
  | answer _ (.job number) _ => some number
  | openDeadline number _ | closeDeadline number _ => some number
  | _ => none

inductive Notice
  | post (job : Job)
  | hold (delay : Int) (job : Job)
  | hurry (number : Nat)
  | changed (phase : Phase) (version : Nat) (metadata : Json) (failure : Option Failure)
  | requested (request : Request)
  | shown (version : Nat) (document : Json)
  | fullscreen
  | closed
  | returned (caller : String) (breakdown : Option Breakdown)
  | settled (waiter : String) (phase : Phase)
  | gaveUp (waiter : String) (breakdown : Breakdown)

/-- Someone who waits for a verdict, looking again after a time. `watched` are the jobs that come
first. -/
structure Waiter where
  name : String
  poll : Int
  watched : List Nat := []
  deriving DecidableEq, Repr

structure Controller where
  session : String
  options : List (String × Json) := []
  /-- What whoever reports a rendering finds wrong with its metadata. -/
  objection : Json → Option Breakdown := fun _ => none
  autoStub : Bool := true
  debounceTime : Milliseconds := .count 1000
  renderTime : Milliseconds := .count 5000
  phase : Phase := .idle
  version : Nat := 0
  code : Option String := none
  document : Json := .null
  metadata : Json := .obj []
  failure : Option Failure := none
  seeded : List String := []
  isFullscreen : Bool := false
  isClosed : Bool := false
  /-- The versions that have failed, the latest first. -/
  failed : List Nat := []
  debounce : Option Nat := none
  deadline : Option Nat := none
  /-- The requests that follow edits or errors and have not been struck off. -/
  inflight : List Nat := []
  /-- The debounces and requests that have not ended. -/
  unfinished : List Nat := []
  /-- The requests that were called off while nothing was closed. -/
  calledOff : List Nat := []
  /-- The requests that broke down. -/
  broken : List (Nat × Breakdown) := []
  nextJob : Nat := 0
  waiters : List Waiter := []
  notices : List Notice := []

namespace Controller

def note (controller : Controller) (notice : Notice) : Controller :=
  { controller with notices := controller.notices ++ [notice] }

/-- Hands over the notices. -/
def flush (controller : Controller) : Controller × List Notice :=
  ({ controller with notices := [] }, controller.notices)

def enter (controller : Controller) (phase : Phase) : Controller :=
  { controller with phase }.note
    (.changed phase controller.version controller.metadata controller.failure)

def callOff (controller : Controller) : Option Nat → Controller
  | none => controller
  | some number => controller.note (.hurry number)

def callOffDebounce (controller : Controller) : Controller :=
  { controller.callOff controller.debounce with debounce := none }

def callOffDeadline (controller : Controller) : Controller :=
  { controller.callOff controller.deadline with deadline := none }

def isCurrent (controller : Controller) (version : Nat) : Bool :=
  !controller.isClosed && version == controller.version

end Controller

end ComponentPreview
