import ComponentPreview.Client.Address
import ComponentPreview.Json.Bytes
import ComponentPreview.Json.Display
import ComponentPreview.Text.Pattern

/-!
# Exchanges with the service

A request for a preview is answered with a verdict, good or bad; anything else is a failure of
transport, whose message says what the service had to say about it.
-/

namespace ComponentPreview

/-- The service did not give a verdict. -/
structure TransportError where
  message : String
  status : Option Int := none
  deriving DecidableEq, Repr

structure HttpReply where
  status : Int
  body : List UInt8
  deriving DecidableEq, Repr

/-- What comes of sending a request: a reply, or the text of what kept it from coming. -/
abbrev Delivery := Except String HttpReply

structure Outgoing where
  method : String
  url : String
  body : Option Json

structure PreviewCall where
  code : String
  session : String
  version : Int
  options : List (String × Json) := []
  collaboration : Bool := false

def PreviewCall.encode (call : PreviewCall) : Json :=
  .obj [
    ("code", .str call.code),
    ("type", .str "component"),
    ("options", .obj call.options),
    ("sessionId", .str call.session),
    ("version", .int call.version),
    ("collaboration", .bool call.collaboration)
  ]

/-- Why a call to the service has no result. -/
inductive CallError
  | transport (error : TransportError)
  | unreadable (fault : Json.ByteFault)
  /-- There was a reply, but its address names no kind of service. -/
  | unknownKind (url : String)
  deriving DecidableEq, Repr

/-- Where the service is: its address, also as one that targets can be put under, and the address of
its sockets. -/
structure Client where
  apiUrl : String
  base : Address
  socketUrl : String
  deriving DecidableEq, Repr

namespace Client

def substitute (old new : String) (text : List Char) : List Char :=
  (Pattern.lit old).replace (fun _ => new.toList) text

def withSocketScheme (url : String) : String :=
  String.ofList (substitute "http://" "ws://" (substitute "https://" "wss://" url.toList))

/-- A client for a service. Without an address for its sockets that follows from the other one. -/
def forService (apiUrl : String) (socketUrl : Option String) : Except AddressError Client := do
  let apiUrl := Address.withoutSlashes apiUrl
  let given := socketUrl.getD ""
  let chosen := if given.isEmpty then withSocketScheme apiUrl else given
  let address ← Address.ofText apiUrl.toList
  return { apiUrl, base := ← address.asBase, socketUrl := Address.withoutSlashes chosen }

def previewUrl (client : Client) (session : String) : String :=
  client.apiUrl ++ "/preview/" ++ session

def relayUrl (client : Client) (session : String) : String :=
  client.socketUrl ++ "/ws/preview/" ++ session

def resolve (client : Client) (target : String) : Except AddressError String := do
  return String.ofList (← client.base.under target.toList).toText

def headers : List (String × String) :=
  [("accept", "application/json"), ("content-type", "application/json")]

def submission (client : Client) (call : PreviewCall) : Except AddressError Outgoing := do
  return ⟨"POST", ← client.resolve "/api/live-preview", some call.encode⟩

def lookup (client : Client) (session : String) : Except AddressError Outgoing := do
  return ⟨"GET", ← client.resolve ("/api/live-preview/" ++ session), none⟩

/-- Whether an address says what kind of service it is for, before a colon. -/
def namesKind (url : String) : Bool :=
  let kind := url.toList.takeWhile fun c => c != '/' && c != ':'
  !kind.isEmpty && (url.toList.drop kind.length).head? == some ':'

/-- Takes what came of a request; `purpose` is what the request was for. -/
def receive (purpose : String) (outgoing : Outgoing) : Delivery → Except CallError HttpReply
  | .error reason => .error (.transport { message := purpose ++ " failed: " ++ reason })
  | .ok reply => if namesKind outgoing.url then .ok reply else .error (.unknownKind outgoing.url)

/-- What a reply says about a failure: its error or detail, followed by its details. -/
def complaint (body : Json) : Json :=
  let error := body.get "error"
  let detail := if error.isTruthy then error else body.get "detail"
  let details := body.get "details"
  if details.isTruthy then .str (detail.display ++ ": " ++ details.display) else detail

/-- What a reply that is no verdict says about itself. A body that cannot be read says nothing,
unless it is nested too deeply to be looked at. -/
def describe (reply : HttpReply) : CallError :=
  let failure (said : Json) : CallError :=
    .transport ⟨"Backend returned " ++ toString reply.status ++
      (if said.isTruthy then " (" ++ said.display ++ ")" else ""), some reply.status⟩
  match Json.readBytes reply.body with
  | .ok (.obj fields) => failure (complaint (.obj fields))
  | .ok _ => failure .null
  | .error fault => if fault.isTooDeep then .unreadable fault else failure .null

def readVerdict (outgoing : Outgoing) (delivery : Delivery) : Except CallError Json := do
  let reply ← receive "Preview request" outgoing delivery
  if reply.status = 200 ∨ reply.status = 400 then
    (Json.readBytes reply.body).mapError fun fault =>
      if fault.isTooDeep then .unreadable fault
      else .transport ⟨"Backend returned invalid JSON", some reply.status⟩
  else throw (describe reply)

/-- Reads what the service has stored of a session, if it has anything. -/
def readLookup (outgoing : Outgoing) (delivery : Delivery) : Except CallError (Option Json) := do
  let reply ← receive "Version lookup" outgoing delivery
  if reply.status = 404 then return none
  else if reply.status = 200 then
    return some (← (Json.readBytes reply.body).mapError .unreadable)
  else throw (describe reply)

end Client

end ComponentPreview
