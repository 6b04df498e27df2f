import ComponentPreview.Client.Relay
import ComponentPreview.Controller.Session
import ComponentPreview.Terminal.Arguments
import ComponentPreview.Terminal.Browser
import ComponentPreview.Terminal.File
import ComponentPreview.Terminal.Inbox
import ComponentPreview.Terminal.Report

/-!
# The state of the program

The program shows one file. It sends requests, listens on the relay, reads commands from its
console, and prints a report of what happens, until it ends with an exit code or by an error that
nobody provides for.
-/

namespace ComponentPreview

/-- What happens outside the program. -/
inductive Happening
  | write (name : String) (content : List UInt8)
  | delete (name : String)
  | frame (frame : Frame)
  | hangUp
  | line (text : Option String)
  | interrupt
  deriving DecidableEq, Repr

/-- What comes of a request after a number of microseconds. The verdict of the sandbox, a frame,
follows after some more. -/
structure Outcome where
  delay : Int
  delivery : Delivery
  verdict : Option (Int × String) := none

abbrev Service := Int → PreviewCall → Outcome

inductive Errand
  | start
  | control (job : Job)
  | reply (request : Request) (outcome : Outcome)
  | look
  | dial
  | readFrames
  | openConsole
  | readLines
  | happening (happening : Happening)

/-- Who waits for answers: the command itself, or the console. -/
def mainCaller : String := "main"

def consoleCaller : String := "console"

namespace Errand

def isNumber (errand : Errand) (number : Nat) : Bool :=
  match errand with
  | control job => job.number? == some number
  | reply request _ => request.asker == .job number
  | _ => false

/-- Whether an errand is a step of the command itself. -/
def isMain : Errand → Bool
  | start | look => true
  | control (.attend waiter) => waiter == mainCaller
  | reply request _ => request.asker == .caller mainCaller
  | _ => false

end Errand

/-- An error that ends the program. -/
inductive ProgramError
  | broken (breakdown : Breakdown)
  | address (error : AddressError)
  | file (fault : File.Fault)

def ProgramError.message : ProgramError → String
  | broken breakdown => breakdown.message
  | address error => error.message
  | file fault => fault.message

structure Terminal where
  command : Command
  path : String
  client : Client
  controller : Controller
  browser : Browser
  bus : Bus String := .empty
  /-- What was wrong with the environment. -/
  warnings : String := ""
  schedule : Schedule Errand := {}
  files : List File := []
  /-- When the file that was read last had been written. -/
  seen : Option Int := none
  /-- What the newest connection to the relay has brought; `none` is its end. -/
  frames : Inbox (Option Frame) := {}
  /-- How many connections to the relay are still refused. -/
  refusals : Nat := 0
  /-- The lines of the console; `none` is the end of the input. -/
  lines : Inbox (Option String) := {}
  isInterrupted : Bool := false
  printed : String := ""
  calls : List PreviewCall := []
  opened : List String := []
  dialed : List String := []
  ending : Option (Except ProgramError Nat) := none

namespace Terminal

/-- How long the program sleeps before it looks at the file again. -/
def filePause : Int := 250000

def relayPause : Int := 2000000

def verdictPause : Int := 50000

def print (terminal : Terminal) (text : String) : Terminal :=
  { terminal with printed := terminal.printed ++ text }

def finish (terminal : Terminal) (ending : Except ProgramError Nat) : Terminal :=
  { terminal with ending := terminal.ending.or (some ending) }

def stop (terminal : Terminal) (code : Nat) : Terminal :=
  terminal.finish (.ok code)

def fall (terminal : Terminal) (error : ProgramError) : Terminal :=
  terminal.finish (.error error)

def post (terminal : Terminal) (errand : Errand) : Terminal :=
  { terminal with schedule := terminal.schedule.post errand }

def hold (terminal : Terminal) (delay : Int) (errand : Errand) : Terminal :=
  { terminal with schedule := terminal.schedule.hold delay errand }

def alarm (terminal : Terminal) (delay : Int) (errand : Errand) : Terminal :=
  { terminal with schedule := terminal.schedule.alarm delay errand }

/-- Lets the browser act and takes over what it says. -/
def browse (terminal : Terminal) (action : Browser → Browser) : Terminal :=
  let browser := action { terminal.browser with printed := "", opened := [] }
  { terminal.print browser.printed with browser, opened := terminal.opened ++ browser.opened }

def session (terminal : Terminal) : String :=
  terminal.controller.session

/-- The call that a request makes. -/
def callOf (terminal : Terminal) (request : Request) : PreviewCall where
  code := request.code
  session := terminal.session
  version := request.version
  options := request.options

/-- Sends a request to the service. -/
def send (service : Service) (terminal : Terminal) (request : Request) : Terminal :=
  let call := terminal.callOf request
  let outcome := service terminal.schedule.now call
  { terminal with calls := terminal.calls ++ [call] }.hold outcome.delay (.reply request outcome)

/-- Takes up a notice of the controller. -/
def heed (service : Service) (terminal : Terminal) (notice : Notice) : Terminal :=
  let terminal :=
    { terminal with schedule := terminal.schedule.heed .control Errand.isNumber notice }
  match notice with
  | .changed phase version metadata failure =>
      terminal.print (Report.text phase version metadata failure)
  | .requested request => terminal.send service request
  | .shown _ _ => terminal.browse (·.present terminal.session)
  | .fullscreen => terminal.browse (·.fullscreen terminal.session)
  | .closed =>
      { terminal.browse Browser.close with
        bus := terminal.bus.unsubscribe terminal.session terminal.session }
  | .settled _ phase => terminal.stop (if phase = .ready then 0 else 1)
  | .gaveUp _ breakdown => terminal.fall (.broken breakdown)
  | _ => terminal

/-- Lets the controller act and takes up its notices; tells who got an answer, or that it broke
down. -/
def act (service : Service) (action : Controller → Controller) (terminal : Terminal) :
    Terminal × List (String × Option Breakdown) :=
  let (controller, notices) := (action terminal.controller).flush
  (notices.foldl (heed service) { terminal with controller },
    notices.filterMap fun
      | .returned caller breakdown => some (caller, breakdown)
      | _ => none)

end Terminal

end ComponentPreview
