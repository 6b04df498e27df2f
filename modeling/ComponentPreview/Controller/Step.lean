import ComponentPreview.Controller.Request

/-!
# What a controller does

Edits, refreshes, messages of the sandbox and closing come from outside; `perform` does a job whose
turn has come. After closing nothing changes any more.
-/

namespace ComponentPreview.Controller

/-- Takes new source. It is requested when no other follows within the debounce time. -/
def edit (controller : Controller) (code : String) : Controller :=
  if controller.isClosed then controller
  else
    let controller := controller.callOffDebounce
    let number := controller.nextJob
    { controller with
      code := some code
      nextJob := number + 1
      debounce := some number
      unfinished := controller.unfinished ++ [number] }.note (.post (.openDebounce number))

/-- Requests the source at once. -/
def refresh (controller : Controller) (caller : String) : Controller :=
  if controller.isClosed || controller.code.isNone then controller.note (.returned caller none)
  else controller.callOffDebounce.request (.caller caller)

def fullscreen (controller : Controller) : Controller :=
  if controller.isClosed then controller
  else { controller with isFullscreen := true }.note .fullscreen

def close (controller : Controller) : Controller :=
  if controller.isClosed then controller
  else
    let controller :=
      { controller with isClosed := true }.callOffDebounce.callOffDeadline
    (controller.inflight.foldl (fun controller number => controller.note (.hurry number))
      controller).note .closed

/-- Requests the source again with a placeholder for a symbol that was not seeded before. -/
def seed (controller : Controller) (message : String) : Controller :=
  match undefinedSymbol? message.toList with
  | none => controller
  | some name =>
      if !controller.autoStub || controller.seeded.contains name then controller
      else { controller with seeded := controller.seeded ++ [name] }.spawn

def handle (controller : Controller) (message : LifecycleMessage) : Controller :=
  let isStale := match message.version with
    | some version => version != (controller.version : Int)
    | none => false
  if controller.isClosed || message.session != controller.session || isStale then controller
  else
    match message.event with
    | .ready _ _ =>
        if controller.phase = .rendering then controller.callOffDeadline.enter .ready
        else controller
    | .error error =>
        if controller.phase = .idle then controller
        else
          (controller.fail .runtime (.str error.message) controller.version []).seed error.message

/-! ## Waiting for a verdict -/

/-- The jobs that a verdict has to wait for. -/
def pending (controller : Controller) : List Nat :=
  controller.debounce.toList ++
    controller.inflight.filter controller.unfinished.contains

/-- Whether the newest version has its verdict and nothing is under way. -/
def hasVerdict (controller : Controller) : Bool :=
  (controller.phase == .ready || controller.phase == .errored) && controller.inflight.isEmpty

def setWaiter (controller : Controller) (waiter : Waiter) : Controller :=
  { controller with
    waiters := controller.waiters.map fun other =>
      if other.name == waiter.name then waiter else other }

def settle (controller : Controller) (waiter : Waiter) : Controller :=
  { controller with waiters := controller.waiters.filter (·.name != waiter.name) }.note
    (.settled waiter.name controller.phase)

/-- Lets a waiter wait for the pending jobs; without any it has its verdict or looks later. -/
def suspend (controller : Controller) (waiter : Waiter) : Controller :=
  let watched := controller.pending
  let controller := controller.setWaiter { waiter with watched }
  if !watched.isEmpty then controller
  else if controller.hasVerdict then controller.settle waiter
  else controller.note (.hold waiter.poll (.attend waiter.name))

/-- Lets a waiter give up because a job broke down. -/
def giveUp (controller : Controller) (waiter : Waiter) (breakdown : Breakdown) : Controller :=
  { controller with waiters := controller.waiters.filter (·.name != waiter.name) }.note
    (.gaveUp waiter.name breakdown)

def hasEnded (controller : Controller) (number : Nat) : Bool :=
  !controller.unfinished.contains number

/-- The first breakdown among the jobs that have ended before one that has not. -/
def breakdownAmong (controller : Controller) (watched : List Nat) : Option Breakdown :=
  (watched.takeWhile controller.hasEnded).findSome? fun number =>
    (controller.broken.find? (·.1 == number)).map Prod.snd

def attend (controller : Controller) (name : String) : Controller :=
  match controller.waiters.find? (·.name == name) with
  | none => controller
  | some waiter =>
      match controller.breakdownAmong waiter.watched with
      | some breakdown => controller.giveUp waiter breakdown
      | none =>
          let watched := waiter.watched.dropWhile controller.hasEnded
          if waiter.watched.isEmpty && controller.isClosed then controller.settle waiter
          else if watched.isEmpty then controller.suspend waiter
          else controller.setWaiter { waiter with watched }

/-- Starts to wait for a verdict, looking again every `poll` microseconds. -/
def await (controller : Controller) (name : String) (poll : Int) : Controller :=
  { controller with waiters := controller.waiters ++ [{ name, poll }] }

/-- Calls off a request that has not ended. -/
def callOffRequest (controller : Controller) (number : Nat) : Controller :=
  { controller with calledOff := number :: controller.calledOff }.note (.hurry number)

def isCalledOff (controller : Controller) : Asker → Bool
  | .job number => controller.calledOff.contains number
  | .caller _ => false

/-! ## Jobs -/

def openDebounce (controller : Controller) (number : Nat) : Controller :=
  if controller.debounce = some number then
    controller.note (.hold controller.debounceTime.microseconds (.closeDebounce number))
  else controller.finish number

def closeDebounce (controller : Controller) (number : Nat) : Controller :=
  if controller.debounce = some number then
    { controller with debounce := none }.spawn.finish number
  else controller.finish number

def openDeadline (controller : Controller) (number version : Nat) : Controller :=
  if controller.deadline = some number then
    controller.note (.hold controller.renderTime.microseconds (.closeDeadline number version))
  else controller

def timeoutMessage (time : Milliseconds) : String :=
  "Render timed out after " ++ time.encode.display ++ "ms"

def closeDeadline (controller : Controller) (number version : Nat) : Controller :=
  if controller.deadline = some number then
    let controller := { controller with deadline := none }
    if controller.isCurrent version && controller.phase == .rendering then
      controller.fail .runtime (.str (timeoutMessage controller.renderTime)) version []
    else controller
  else controller

def perform (controller : Controller) : Job → Controller
  | .openDebounce number => controller.openDebounce number
  | .closeDebounce number => controller.closeDebounce number
  | .request number =>
      if controller.isClosed || controller.isCalledOff (.job number) then controller.finish number
      else controller.request (.job number)
  | .refresh caller => controller.refresh caller
  | .answer version asker answer =>
      if controller.isCalledOff asker then controller.endFor none asker
      else
        (controller.receive version answer).endFor (controller.breakdown? version answer) asker
  | .retire number => { controller with inflight := controller.inflight.erase number }
  | .openDeadline number version => controller.openDeadline number version
  | .closeDeadline number version => controller.closeDeadline number version
  | .attend waiter => controller.attend waiter

end ComponentPreview.Controller
