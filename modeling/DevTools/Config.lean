import DevTools.Duration
import DevTools.Message.Format
import DevTools.Number.Natural
import DevTools.Text.Blank

set_option autoImplicit false

namespace DevTools

open Json

structure Config where
  eventBuffer : UInt64 := 256
  requestTimeoutMs : Option UInt64 := none
  connectTimeoutMs : UInt64 := 10000
  maxFrameBytes : UInt64 := 256 * 1024 * 1024
deriving DecidableEq, Repr

namespace Config

def readSize (depth : Nat) (s : Bytes) : Except Json.Error (UInt64 × Bytes) :=
  (readNatural size depth s).map fun (n, rest) => (UInt64.ofNat n, rest)

def record : Record Config where
  name := "ConnectionConfig"
  blank := {}
  fields := [
    .of "eventBuffer" false readSize fun c eventBuffer => { c with eventBuffer },
    .of "requestTimeoutMs" false (readOptional readId) fun c requestTimeoutMs => { c with requestTimeoutMs },
    .of "connectTimeoutMs" false readId fun c connectTimeoutMs => { c with connectTimeoutMs },
    .of "maxFrameBytes" false readSize fun c maxFrameBytes => { c with maxFrameBytes }]

def render (c : Config) : String :=
  renderObject [("eventBuffer", toString c.eventBuffer.toNat),
    ("requestTimeoutMs", (c.requestTimeoutMs.map fun n => toString n.toNat).getD "null"),
    ("connectTimeoutMs", toString c.connectTimeoutMs.toNat),
    ("maxFrameBytes", toString c.maxFrameBytes.toNat)]

def effectiveEventBuffer (c : Config) : Nat := max c.eventBuffer.toNat 1

def requestTimeout (c : Config) : Option Duration :=
  c.requestTimeoutMs.map fun n => .ofMilliseconds n.toNat

def connectTimeout (c : Config) : Duration := .ofMilliseconds c.connectTimeoutMs.toNat

def withEventBuffer (c : Config) (n : UInt64) : Config := { c with eventBuffer := n }

def withMaxFrameBytes (c : Config) (n : UInt64) : Config := { c with maxFrameBytes := n }

-- Milliseconds beyond 64 bits are cut off.
def withRequestTimeout (c : Config) (d : Duration) : Config :=
  { c with requestTimeoutMs := some (UInt64.ofNat d.milliseconds) }

def withConnectTimeout (c : Config) (d : Duration) : Config :=
  { c with connectTimeoutMs := UInt64.ofNat d.milliseconds }

def number? (text : String) : Option UInt64 :=
  match Natural.ofText? (Text.trim text.toList) with
  | some n => if n < UInt64.size then some (UInt64.ofNat n) else none
  | none => none

def ofEnvironment (valueOf : String → Option Bytes) : Config :=
  let number? (name : String) : Option UInt64 := (valueOf name).bind Utf8.decode? |>.bind number?
  let defaults : Config := {}
  { eventBuffer := (number? "CDP_EVENT_BUFFER").getD defaults.eventBuffer
    requestTimeoutMs := number? "CDP_REQUEST_TIMEOUT_MS"
    connectTimeoutMs := (number? "CDP_CONNECT_TIMEOUT_MS").getD defaults.connectTimeoutMs
    maxFrameBytes := (number? "CDP_MAX_FRAME_BYTES").getD defaults.maxFrameBytes }

end Config

end DevTools
