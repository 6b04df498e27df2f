import ComponentPreview.Controller.Basic

/-!
# Requests and their answers

A request takes the next version number. Its answer counts only while that version is the newest
and has not failed; a good one is shown and must be ready within the render time.
-/

namespace ComponentPreview.Controller

/-- Ends a job and wakes those who wait for it. -/
def finish (controller : Controller) (number : Nat) (breakdown : Option Breakdown := none) :
    Controller :=
  let controller :=
    { controller with
      unfinished := controller.unfinished.erase number
      broken := controller.broken ++ (breakdown.map (number, ·)).toList }
  let controller :=
    if controller.inflight.contains number then controller.note (.post (.retire number))
    else controller
  (controller.waiters.filter (·.watched.head? == some number)).foldl
    (fun controller waiter => controller.note (.post (.attend waiter.name))) controller

def endFor (controller : Controller) (breakdown : Option Breakdown) : Asker → Controller
  | .job number => controller.finish number breakdown
  | .caller name => controller.note (.returned name breakdown)

/-- Starts a request in a job of its own. -/
def spawn (controller : Controller) : Controller :=
  let number := controller.nextJob
  { controller with
    nextJob := number + 1
    inflight := controller.inflight ++ [number]
    unfinished := controller.unfinished ++ [number] }.note (.post (.request number))

def requestOptions (controller : Controller) : List (String × Json) :=
  if controller.seeded.isEmpty then controller.options
  else Named.put "stubs" (.ofStrings controller.seeded) controller.options

def request (controller : Controller) (asker : Asker) : Controller :=
  match controller.code with
  | none => controller.endFor none asker
  | some code =>
      let controller :=
        { { controller with version := controller.version + 1 }.callOffDeadline with
          failure := none }.enter .requesting
      controller.note (.requested ⟨code, controller.version, controller.requestOptions, asker⟩)

/-- Whether a message can be announced: it is a text or a list. -/
def isAnnounced : Json → Bool
  | .str _ | .arr _ => true
  | _ => false

/-- Records the first failure of a version. -/
def fail (controller : Controller) (kind : FailureKind) (message : Json) (version : Nat)
    (suggestions : List Json) : Controller :=
  if controller.failed.contains version then controller
  else
    let controller :=
      { controller with failed := version :: controller.failed }.callOffDeadline
    let controller :=
      { controller with failure := some { kind, message, version, suggestions } }
    if isAnnounced message then controller.enter .errored else controller

/-- What a value holds one after the other, if it is of that kind; nothing holds nothing. -/
def elements? (value : Json) : Option (List Json) :=
  if value.isTruthy then
    match value with
    | .arr items => some items
    | .str text => some (text.toList.map fun c => .str c.toString)
    | .obj fields => some (fields.map fun field => .str field.1)
    | _ => none
  else some []

def reject (controller : Controller) (version : Nat) (body : Json) : Controller :=
  let kind := ((body.get "errorKind").str?.bind FailureKind.ofLabel?).getD .input
  let error := body.get "error"
  let message := if error.isTruthy then error else .str "Preview failed"
  match elements? (body.get "suggestions") with
  | some suggestions => controller.fail kind message version suggestions
  | none => controller

/-- A value, or an empty object in place of nothing; `none` if it is no object. -/
def fieldsOf? (value : Json) : Option Json :=
  if value.isTruthy then
    match value with
    | .obj fields => some (.obj fields)
    | _ => none
  else some (.obj [])

def adoptLimits (controller : Controller) (limits : Json) : Controller :=
  let renderTime := match Milliseconds.ofJson? (limits.get "maxRenderTimeMs") with
    | some time => if 0 < time.value then time else controller.renderTime
    | none => controller.renderTime
  let debounceTime := match Milliseconds.ofJson? (limits.get "debounceMs") with
    | some time => if 0 ≤ time.value then time else controller.debounceTime
    | none => controller.debounceTime
  { controller with renderTime, debounceTime }

/-- Shows a document and sets the deadline of its rendering. -/
def display (controller : Controller) (version : Nat) : Controller :=
  let controller := controller.enter .rendering
  let controller :=
    if controller.document.isNull then controller
    else controller.note (.shown version controller.document)
  let number := controller.nextJob
  { controller with nextJob := number + 1, deadline := some number }.note
    (.post (.openDeadline number version))

def metadataOf (body : Json) : Json :=
  let metadata := body.get "metadata"
  if metadata.isTruthy then metadata else .obj []

def accept (controller : Controller) (version : Nat) (body : Json) : Controller :=
  let metadata := metadataOf body
  let controller := { controller with document := body.get "previewHTML", metadata }
  match (fieldsOf? metadata).bind fun fields => fieldsOf? (fields.get "limits") with
  | none => controller
  | some limits =>
      let controller := controller.adoptLimits limits
      if (controller.objection metadata).isSome then controller.enter .rendering
      else controller.display version

def receive (controller : Controller) (version : Nat) (answer : Answer) : Controller :=
  if !controller.isCurrent version then controller
  else
    match answer with
    | .error (.transport reason) => controller.fail .transport (.str reason) version []
    | .ok (.obj fields) =>
        if controller.failed.contains version then controller
        else if (Json.get "success" (.obj fields)).isTruthy then
          controller.accept version (.obj fields)
        else controller.reject version (.obj fields)
    | _ => controller

/-! ## Bodies of the wrong shape -/

/-- What is wrong with the body of a refusal. -/
def flawOfRefusal (body : Json) : Option Breakdown :=
  let error := body.get "error"
  if (elements? (body.get "suggestions")).isNone then some (.noElements (body.get "suggestions"))
  else if error.isTruthy && !isAnnounced error then some (.noBeginning error)
  else none

/-- What is wrong with the body of a success. -/
def flawOfSuccess (body : Json) : Option Breakdown :=
  match fieldsOf? (body.get "metadata") with
  | none => some (.noFields (body.get "metadata"))
  | some metadata =>
      if (fieldsOf? (metadata.get "limits")).isNone then some (.noFields (metadata.get "limits"))
      else none

/-- What breaks down when an answer is received. -/
def breakdown? (controller : Controller) (version : Nat) : Answer → Option Breakdown
  | .error (.broken breakdown) => some breakdown
  | .error (.transport _) => none
  | .ok body =>
      if !controller.isCurrent version || controller.failed.contains version then none
      else
        match body with
        | .obj _ =>
            if (body.get "success").isTruthy then
              (flawOfSuccess body).or (controller.objection (metadataOf body))
            else flawOfRefusal body
        | _ => some (.noFields body)

end ComponentPreview.Controller
