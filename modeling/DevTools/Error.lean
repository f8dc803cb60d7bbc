import DevTools.Duration
import DevTools.Message.Frame

set_option autoImplicit false

namespace DevTools

inductive Error where
  | connectionFailed (endpoint reason : String)
  | transport (reason : String)
  | connectionClosed
  | sessionDetached (session : SessionId)
  | protocol (payload : ErrorPayload)
  | cancelled
  | timeout (after : Duration)
  | sessionNotFound (session : SessionId)
  | invalidArgument (reason : String)
  | codec (fault : FrameFault)
  | json (fault : Json.Error)
  | io (reason : String)
deriving Repr

inductive ErrorKind where
  | transport
  | protocol
  | cancelled
  | here
deriving DecidableEq, Repr

namespace Error

def message : Error → String
  | connectionFailed endpoint reason => s!"Failed to connect to {endpoint}: {reason}"
  | transport reason => s!"Transport error: {reason}"
  | connectionClosed => "Connection closed"
  | sessionDetached session => s!"Session {session.text} detached while the call was pending"
  | protocol payload => s!"Protocol error {payload.code.toInt}: {payload.message}"
  | cancelled => "Call cancelled"
  | timeout after => s!"Timed out after {after.describe}"
  | sessionNotFound session => s!"Session not found: {session.text}"
  | invalidArgument reason => s!"Invalid argument: {reason}"
  | codec fault => s!"Codec error: {fault.message}"
  | json fault => s!"JSON error: {fault.message}"
  | io reason => s!"I/O error: {reason}"

def kind : Error → ErrorKind
  | connectionFailed .. | transport .. | connectionClosed | sessionDetached .. | io .. => .transport
  | protocol .. => .protocol
  | cancelled | timeout .. => .cancelled
  | sessionNotFound .. | invalidArgument .. | codec .. | json .. => .here

def isCancelled (e : Error) : Bool := e.kind == .cancelled

def isTransport (e : Error) : Bool := e.kind == .transport

def protocolCode? : Error → Option Int64
  | protocol payload => some payload.code
  | _ => none

end Error

end DevTools
