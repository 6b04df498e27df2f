import ComponentPreview.Controller.Step
import ComponentPreview.Lifecycle.Bus
import ComponentPreview.Schedule

/-!
# A session in time

A session runs the jobs of a controller in rounds. A service answers each request after a delay,
messages come over a bus, and everything that is posted is done before time moves on.
-/

namespace ComponentPreview

/-- The answer to a request made at a time, and after how many microseconds it comes. -/
abbrev Backend := Int → Request → Int × Answer

namespace Schedule

/-- Takes up what a notice says about jobs. -/
def heed (lift : Job → ι) (isJob : ι → Nat → Bool) (schedule : Schedule ι) : Notice → Schedule ι
  | .post job => schedule.post (lift job)
  | .hold delay job => schedule.hold delay (lift job)
  | .hurry number => schedule.hurry fun work => isJob work number
  | _ => schedule

end Schedule

/-- A notice and when it was given. -/
structure Remark where
  time : Int
  notice : Notice

structure Session where
  controller : Controller
  schedule : Schedule Job := {}
  bus : Bus String := .empty
  remarks : List Remark := []

namespace Session

/-- A session whose controller listens on the bus. -/
def start (controller : Controller) : Session :=
  { controller, bus := Bus.empty.subscribe controller.session controller.session }

def isNumber (job : Job) (number : Nat) : Bool :=
  job.number? == some number

def heed (backend : Backend) (session : Session) (notice : Notice) : Session :=
  let session :=
    { session with
      schedule := session.schedule.heed id isNumber notice
      remarks := session.remarks ++ [⟨session.schedule.now, notice⟩] }
  match notice with
  | .requested request =>
      let (delay, answer) := backend session.schedule.now request
      { session with
        schedule := session.schedule.hold delay (.answer request.version request.asker answer) }
  | .closed =>
      { session with
        bus := session.bus.unsubscribe session.controller.session session.controller.session }
  | _ => session

/-- Lets the controller act and takes up its notices. -/
def act (backend : Backend) (action : Controller → Controller) (session : Session) : Session :=
  let (controller, notices) := (action session.controller).flush
  notices.foldl (heed backend) { session with controller }

/-- Does what is posted or due, in at most `bound` turns. -/
def settle (backend : Backend) : Nat → Session → Session
  | 0, session => session
  | bound + 1, session =>
      match session.schedule.turn? with
      | none => session
      | some (none, schedule) => settle backend bound { session with schedule }
      | some (some job, schedule) =>
          settle backend bound (act backend (·.perform job) { session with schedule })

/-- Moves time on to `stop`, doing what becomes due on the way. -/
def advance (backend : Backend) (stop : Int) : Nat → Session → Session
  | 0, session => session
  | bound + 1, session =>
      match session.schedule.wakeBy? stop with
      | none => { session with schedule := { session.schedule with now := stop } }
      | some schedule =>
          advance backend stop bound (settle backend (bound + 1) { session with schedule })

def publish (backend : Backend) (session : Session) (message : LifecycleMessage) :
    Session × Nat :=
  Bus.publish Session.bus
    (fun _ session => (act backend (·.handle message) session, true)) message.session session

/-- What happens to a session from outside. -/
inductive Input
  | edit (code : String)
  | refresh
  | fullscreen
  | close
  /-- A message on the bus. -/
  | message (message : LifecycleMessage)
  /-- A message that does not come over the bus. -/
  | direct (message : LifecycleMessage)
  /-- Someone starts to wait for a verdict, looking again every `poll` microseconds. -/
  | wait (name : String) (poll : Int)
  | advance (span : Int)
  deriving DecidableEq, Repr

/-- No more turns than this are taken for one input. -/
def turnLimit : Nat := 1000000

def takeAtOnce (backend : Backend) (session : Session) : Input → Session
  | .edit code => act backend (·.edit code) session
  | .refresh => act backend (·.note (.post (.refresh ""))) session
  | .fullscreen => act backend Controller.fullscreen session
  | .close => act backend Controller.close session
  | .message message => (publish backend session message).1
  | .direct message => act backend (·.handle message) session
  | .wait name poll =>
      act backend (fun controller =>
        (controller.await name poll).note (.post (.attend name))) session
  | .advance span => advance backend (session.schedule.now + span) turnLimit session

/-- Takes an input and does all that becomes ready. -/
def take (backend : Backend) (session : Session) (input : Input) : Session :=
  settle backend turnLimit (takeAtOnce backend session input)

def run (backend : Backend) (session : Session) (inputs : List Input) : Session :=
  inputs.foldl (take backend) session

end Session

end ComponentPreview
