import ComponentPreview.Json.Display

/-!
# Lifecycle messages

The sandbox reports to its host that the component is ready or that it failed. A raw message is
accepted only in these two forms and only for the session it names, if it names one; texts are cut
to a fixed length.
-/

namespace ComponentPreview

structure RenderError where
  message : String
  stack : Option String
  componentStack : Option String
  filename : Option String
  line : Option Int
  column : Option Int
  deriving DecidableEq, Repr

inductive LifecycleEvent
  | ready (componentName timestamp : Option String)
  | error (error : RenderError)
  deriving DecidableEq, Repr

structure LifecycleMessage where
  session : String
  version : Option Int
  event : LifecycleEvent
  deriving DecidableEq, Repr

namespace LifecycleMessage

def maxFieldLength : Nat := 20000

/-- The text of a field, cut to its limit; `null` has none. -/
def fieldText : Json → Option String
  | .null => none
  | value => some (String.ofList (value.display.toList.take maxFieldLength))

def readError (fields : Json) : Option RenderError :=
  match fieldText (fields.get "message") with
  | none => none
  | some message =>
      if message.isEmpty then none
      else some {
        message
        stack := fieldText (fields.get "stack")
        componentStack := fieldText (fields.get "componentStack")
        filename := fieldText (fields.get "filename")
        line := (fields.get "lineno").int?
        column := (fields.get "colno").int? }

def readEvent (raw : Json) : Option LifecycleEvent :=
  match raw.get "type" with
  | .str "Ready" =>
      some (.ready (fieldText (raw.get "componentName")) (fieldText (raw.get "timestamp")))
  | .str "Error" =>
      match raw.get "error" with
      | .str message => (readError (.obj [("message", .str message)])).map .error
      | .obj fields => (readError (.obj fields)).map .error
      | _ => none
  | _ => none

/-- Whether a message names no session or the given one. -/
def isFor (session : String) (raw : Json) : Bool :=
  match raw.get "sessionId" with
  | .null => true
  | .str carried => carried == session
  | _ => false

/-- Reads a raw message of a session. A whole number in the message takes the place of `version`. -/
def read? (raw : Json) (session : String) (version : Option Int) : Option LifecycleMessage :=
  match raw with
  | .obj _ =>
      if isFor session raw then
        (readEvent raw).map fun event =>
          { session, version := ((raw.get "version").int?).or version, event }
      else none
  | _ => none

def optionalField (name : String) (encode : α → Json) : Option α → List (String × Json)
  | some value => [(name, encode value)]
  | none => []

def encodeError (error : RenderError) : Json :=
  .obj ([("message", .str error.message)] ++
    optionalField "stack" .str error.stack ++
    optionalField "componentStack" .str error.componentStack ++
    optionalField "filename" .str error.filename ++
    optionalField "lineno" .int error.line ++
    optionalField "colno" .int error.column)

def encode (message : LifecycleMessage) : Json :=
  let fields (type : String) : List (String × Json) :=
    [("type", .str type), ("sessionId", .str message.session)] ++
      optionalField "version" .int message.version
  match message.event with
  | .ready componentName timestamp =>
      .obj (fields "Ready" ++ [("componentName", .ofOption .str componentName),
        ("timestamp", .ofOption .str timestamp)])
  | .error error => .obj (fields "Error" ++ [("error", encodeError error)])

end LifecycleMessage

end ComponentPreview
