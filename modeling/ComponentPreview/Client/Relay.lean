import ComponentPreview.Client.Exchange

/-!
# Frames of the relay

Each frame of a relay connection holds one message, an object; other frames are skipped. A broken
connection ends the messages, and so do bytes that are no text and texts that hold too much.
-/

namespace ComponentPreview

inductive Frame
  | text (text : String)
  | bytes (bytes : List UInt8)
  | broken (reason : String)
  | refusedAddress (reason : String)
  deriving DecidableEq, Repr

/-- Why a connection gave no more messages. -/
inductive RelayEnd
  | closed
  | failed (error : TransportError)
  | unreadable (fault : Json.ByteFault)
  deriving DecidableEq, Repr

namespace Relay

def failure (reason : String) : TransportError :=
  { message := "Lifecycle relay failed: " ++ reason }

def object? : Json → Option Json
  | .obj fields => some (.obj fields)
  | _ => none

/-- The message in what was read, if it is one. What is not JSON is skipped. -/
def message? : Except Json.ByteFault Json → Except RelayEnd (Option Json)
  | .ok value => .ok (object? value)
  | .error fault => if fault.isMalformed then .ok none else .error (.unreadable fault)

/-- The message in a frame, if it holds one, or the end of the connection. -/
def readFrame : Frame → Except RelayEnd (Option Json)
  | .text text =>
      message? ((Json.readText text.toList).mapError fun error => .content error.fault)
  | .bytes bytes => message? (Json.readBytes bytes)
  | .broken reason => .error (.failed (failure reason))
  | .refusedAddress reason =>
      .error (.failed (failure ("ws://x isn't a valid URI: " ++ reason)))

/-- The messages of a connection and why it ended. -/
def read : List Frame → List Json × RelayEnd
  | [] => ([], .closed)
  | frame :: frames =>
      match readFrame frame with
      | .error reason => ([], reason)
      | .ok message =>
          let (messages, reason) := read frames
          (message.toList ++ messages, reason)

end Relay

end ComponentPreview
