import ComponentPreview.Document.HostPage
import ComponentPreview.Digest.Md5
import ComponentPreview.Lifecycle.Bus
import ComponentPreview.Lifecycle.Message
import ComponentPreview.Service.RateLimit
import ComponentPreview.Service.Settings
import ComponentPreview.Service.Store
import ComponentPreview.Service.Submission

/-!
# The preview service

The state of the service and what each request, connection and tick of the clock does to it.
-/

namespace ComponentPreview

/-- A connection of the relay with the messages that wait for it. -/
structure Connection where
  number : Nat
  session : String
  backlog : Backlog LifecycleMessage := .empty
  deriving DecidableEq, Repr

structure App where
  settings : Settings := {}
  store : Store := .empty
  limiter : RateLimiter := .empty
  bus : Bus Nat := .empty
  connections : List Connection := []
  nextConnection : Nat := 0
  serial : Nat := 1
  now : Instant := 0
  /-- When the running cleanup is next due. -/
  nextCleanup : Option Instant := none

inductive ResponseBody
  | json (value : Json)
  | html (text : String)
  | page (document : Document) (text : String)
  | faults (faults : List Fault)
  | nothing

structure Response where
  status : Nat
  headers : List (String × String)
  body : ResponseBody

namespace Response

def jsonHeader : String × String := ("content-type", "application/json")

def htmlHeader : String × String := ("content-type", "text/html; charset=utf-8")

def ofJson (status : Nat) (value : Json) : Response :=
  ⟨status, [jsonHeader], .json value⟩

def detail (status : Nat) (text : String) (headers : List (String × String)) : Response :=
  ⟨status, headers ++ [jsonHeader], .json (.obj [("detail", .str text)])⟩

def notFound : Response :=
  detail 404 "Not Found" []

def notAllowed (method : String) : Response :=
  detail 405 "Method Not Allowed" [("allow", method)]

end Response

structure HttpRequest where
  method : String
  path : List Char
  submission : Except Submission.Refusal Submission
  address : String

namespace App

def securityHeaders : List (String × String) := [
  ("x-content-type-options", "nosniff"),
  ("x-frame-options", "SAMEORIGIN"),
  ("x-xss-protection", "1; mode=block"),
  ("content-security-policy", "default-src 'none'; frame-ancestors 'self'"),
  ("referrer-policy", "strict-origin-when-cross-origin")
]

def tooMany (limit : Int) : Response :=
  .detail 429 ("Too many preview requests. Maximum " ++ toString limit ++ " per minute.")
    [("retry-after", "60")]

/-- Builds a preview within the session's registry and stores it if it succeeds. -/
def preview (app : App) (submission : Submission) : App × Response :=
  let isNew := (submission.session.getD "").isEmpty
  let session :=
    if isNew then Preview.newSession app.serial else submission.session.getD ""
  let serial := if isNew then app.serial + 1 else app.serial
  let store := app.store.ensure session app.now
  let answer := Preview.build
    { config := app.settings.preview, registry := store.registryOf session, now := app.now, serial }
    { code := submission.code.toList, options := submission.options, session := some session,
      version := submission.version, collaboration := submission.collaboration }
  let store := store.setRegistry session answer.registry
  let store := match answer.success with
    | some success => (store.save success.session success.version success.document app.now).1
    | none => store
  ({ app with store, serial := serial + answer.serialsUsed },
    ⟨answer.status, securityHeaders ++ [Response.jsonHeader], .json answer.body⟩)

def submit (app : App) (address : String)
    (submission : Except Submission.Refusal Submission) : App × Response :=
  match submission with
  | .error .unreadable => (app, .detail 400 "There was an error parsing the body" [])
  | .error (.faulty faults) => (app, ⟨422, [Response.jsonHeader], .faults faults⟩)
  | .ok submission =>
      let limit := app.settings.requestsPerMinute
      let (limiter, admitted) :=
        app.limiter.check ("preview:" ++ address) limit (app.now - Instant.minutes 1) app.now
      let app := { app with limiter }
      if admitted then app.preview submission else (app, tooMany limit)

/-- The latest version of a session. -/
def version (app : App) (session : String) : Response :=
  match app.store.latest? session with
  | some { session, version, document := some document, updatedAt, .. } =>
      .ofJson 200 (.obj [
        ("sessionId", .str session),
        ("version", .int version),
        ("componentName", .str document.componentName),
        ("documentHash", .str document.contentHash),
        ("updatedAt", .str (updatedAt.toMicroseconds "Z"))])
  | _ => .detail 404 "Preview not found." []

/-- The host page of a session's latest document. -/
def page (app : App) (session : String) : Response :=
  match app.store.latest? session with
  | some { session, version, document := some document, .. } =>
      let text := HostPage.render session version document
      { status := 200
        headers := [
          ("cache-control", "no-store"),
          ("etag", "\"" ++ Digest.md5 text.toUTF8 ++ "\""),
          ("x-content-type-options", "nosniff"),
          ("x-frame-options", "SAMEORIGIN"),
          Response.htmlHeader]
        body := .page document text }
  | _ =>
      { status := 404
        headers := [Response.htmlHeader]
        body := .html "<html><body><h1>404 - Preview not found</h1></body></html>" }

inductive Route
  | submit
  | version (session : String)
  | page (session : String)
  | health
  deriving DecidableEq, Repr

def Route.method : Route → String
  | submit => "POST"
  | _ => "GET"

/-- The text after a fixed start, if it is one segment of a path. -/
def segmentAfter? (start : String) (path : List Char) : Option String :=
  if Text.startsWith path start then
    let segment := path.drop start.length
    if segment.isEmpty || segment.contains '/' then none else some (String.ofList segment)
  else none

/-- Whether a path is a fixed one, which a line feed may end. -/
def isFixedPath (path : List Char) (fixed : String) : Bool :=
  path == fixed.toList || path == fixed.toList ++ ['\n']

def Route.ofPath? (path : List Char) : Option Route :=
  if isFixedPath path "/api/live-preview" then some .submit
  else
    match segmentAfter? "/api/live-preview/" path with
    | some session => some (.version session)
    | none =>
        match segmentAfter? "/preview/" path with
        | some session => some (.page session)
        | none => if isFixedPath path "/health" then some .health else none

/-- The path with a slash at its end added, or without those that it has. -/
def otherSlash (path : List Char) : List Char :=
  if path.getLast? == some '/' then (path.reverse.dropWhile (· == '/')).reverse else path ++ ['/']

def handle (app : App) (request : HttpRequest) : App × Response :=
  match Route.ofPath? request.path with
  | some route =>
      if request.method != route.method then (app, .notAllowed route.method)
      else match route with
        | .submit => app.submit request.address request.submission
        | .version session => (app, app.version session)
        | .page session => (app, app.page session)
        | .health => (app, .ofJson 200 (.obj [("status", .str "ok")]))
  | none =>
      if request.path != ['/'] && (Route.ofPath? (otherSlash request.path)).isSome then
        (app, ⟨307, [], .nothing⟩)
      else (app, .notFound)

/-! ## Relay -/

/-- Opens a connection of a session and answers its number. -/
def connect (app : App) (session : String) : App × Nat :=
  ({ app with
    bus := app.bus.subscribe session app.nextConnection
    connections := app.connections ++ [⟨app.nextConnection, session, .empty⟩]
    nextConnection := app.nextConnection + 1 }, app.nextConnection)

def disconnect (app : App) (number : Nat) : App :=
  match app.connections.find? (·.number == number) with
  | some connection =>
      { app with
        bus := app.bus.unsubscribe connection.session number
        connections := app.connections.filter (·.number != number) }
  | none => app

def enqueue (message : LifecycleMessage) (number : Nat) (app : App) : App × Bool :=
  ({ app with
    connections := app.connections.map fun connection =>
      if connection.number == number then
        { connection with backlog := connection.backlog.push message }
      else connection }, true)

def publish (app : App) (message : LifecycleMessage) : App × Nat :=
  Bus.publish App.bus (enqueue message) message.session app

/-- What a connection sends is published if it is a message of its session. JSON beyond measure
ends the connection. -/
def receive (app : App) (number : Nat) (text : List Char) : App :=
  match app.connections.find? (·.number == number) with
  | none => app
  | some connection =>
      match Json.readText text with
      | .error error => if error.fault.isExcess then app.disconnect number else app
      | .ok raw =>
          let version := (app.store.latest? connection.session).map StoredPreview.version
          match LifecycleMessage.read? raw connection.session version with
          | some message => (app.publish message).1
          | none => app

/-- Sends every connection what waits for it. -/
def flush (app : App) : App × List (Nat × List LifecycleMessage) :=
  ({ app with
    connections := app.connections.map fun connection => { connection with backlog := .empty } },
    app.connections.map fun connection => (connection.number, connection.backlog.items))

/-! ## Cleanup -/

def cleanupInterval : Instant := 60000000

/-- How long the limiter remembers, in minutes. -/
def limiterMinutes : Int := 10

/-- One run of the cleanup with what it prints. -/
def clean (app : App) : App × String :=
  let app := { app with nextCleanup := some (app.now + cleanupInterval) }
  match Instant.ago app.settings.sessionMinutes app.now with
  | .error fault => (app, "Error in cleanup task: " ++ fault.message ++ "\n")
  | .ok oldest =>
      let (store, removed) := app.store.dropBefore oldest
      let limiter := app.limiter.forgetUntil (app.now - Instant.minutes limiterMinutes)
      ({ app with store, limiter },
        if 0 < removed then
          "Cleaned up " ++ toString removed ++ " expired preview sessions\n"
        else "")

def start (app : App) : App × String :=
  let (app, printed) := app.clean
  (app, "Background cleanup task started\n" ++ printed)

def stop (app : App) : App × String :=
  match app.nextCleanup with
  | some _ => ({ app with nextCleanup := none }, "Background cleanup task stopped\n")
  | none => (app, "")

/-- Runs the cleanups due up to an instant, at most as many as the first argument. -/
def cleanUntil (finish : Instant) : Nat → App → String → App × String
  | 0, app, printed => (app, printed)
  | bound + 1, app, printed =>
      match app.nextCleanup with
      | some due =>
          if due ≤ finish then
            let (app, more) := { app with now := due }.clean
            cleanUntil finish bound app (printed ++ more)
          else (app, printed)
      | none => (app, printed)

def advance (app : App) (span : Int) : App × String :=
  let finish := app.now + span
  let (app, printed) := cleanUntil finish (span / cleanupInterval + 1).toNat app ""
  ({ app with now := finish }, printed)

end App

end ComponentPreview
