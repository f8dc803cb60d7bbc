import DevTools.Text.Ascii
import DevTools.Transport.Result

set_option autoImplicit false

namespace DevTools

-- What the stream gives, byte by byte: a byte, a read that gives nothing, or a failure.
inductive Arrival where
  | byte (b : UInt8)
  | nothing
  | fault (reason : String)
deriving DecidableEq, Repr

-- The reading end. `begun` is the frame so far, its last byte first.
structure Inlet where
  maxFrameBytes : UInt64
  begun : Bytes := []
  queue : List Arrival := []
  ended : Bool := false
deriving DecidableEq, Repr

namespace Inlet

-- How many bytes a frame and its delimiter may take.
def limit (i : Inlet) : Nat := i.maxFrameBytes.toNat + 1

-- The limit is computed in 64 bits, with a check.
def overflows (i : Inlet) : Bool := UInt64.size ≤ i.limit

def tooLong (i : Inlet) : Error := .transport s!"Frame exceeds {i.maxFrameBytes.toNat} bytes"

def cutOff (length : Nat) : Error :=
  .transport s!"Failed to read frame: stream ended after {length} bytes without a delimiter"

def atEnd (begun : Bytes) : Received :=
  if begun.isEmpty then .ended else .failed (cutOff begun.length)

-- Reads on, with `room` for so many bytes more. Gives the frame so far and what is left as well.
def gather (i : Inlet) : (room : Nat) → (begun : Bytes) → List Arrival → Received × Bytes × List Arrival
  | 0, begun, queue => (if begun.isEmpty then .ended else .failed i.tooLong, [], queue)
  | _ + 1, begun, [] => if i.ended then (atEnd begun, [], []) else (.waiting, begun, [])
  | room + 1, begun, .byte b :: queue =>
    if b = Ascii.nul then
      if begun.isEmpty then gather i i.limit [] queue else (.frame begun.reverse, [], queue)
    else gather i room (b :: begun) queue
  | _ + 1, begun, .nothing :: queue => (atEnd begun, [], queue)
  | _ + 1, _, .fault reason :: queue => (.failed (.transport s!"Failed to read frame: {reason}"), [], queue)

def receive (i : Inlet) : Received × Inlet :=
  if i.overflows then (.panicked, i)
  else
    let (received, begun, queue) := i.gather (i.limit - i.begun.length) i.begun i.queue
    (received, { i with begun, queue })

def forget (i : Inlet) : Inlet := { i with begun := [] }

def feed (i : Inlet) (bytes : Bytes) : Inlet := { i with queue := i.queue ++ bytes.map .byte }

end Inlet

-- The writing end: what it has taken, and how it behaves. It takes any number of bytes or only some,
-- and then either waits or says why it takes no more.
structure Outlet where
  accepted : Bytes := []
  room : Option Nat := none
  refusal : Option String := none
  flushFault : Option String := none
  closeFault : Option String := none
  -- What a write says once nobody is there to read, or after the end; none if it goes on all the same.
  hangup : Option String := some "broken pipe"
  broken : Bool := false
  shut : Bool := false
deriving DecidableEq, Repr

namespace Outlet

def take (o : Outlet) (bytes : Bytes) : Bytes × Outlet :=
  match o.room with
  | none => ([], { o with accepted := o.accepted ++ bytes })
  | some n => (bytes.drop n, { o with accepted := o.accepted ++ bytes.take n, room := some (n - bytes.length) })

def writeFault (stage : Stage) (reason : String) : Error :=
  .transport (match stage with
    | .frame => s!"Failed to write frame: {reason}"
    | .delimiter => s!"Failed to write frame delimiter: {reason}"
    | .flush => s!"Failed to flush: {reason}")

def write (o : Outlet) (stage : Stage) (bytes : Bytes) : Sent × Outlet :=
  if bytes.isEmpty then (.done, o)
  else match if o.broken || o.shut then o.hangup else none with
    | some reason => (.failed (writeFault stage reason), o)
    | none =>
      let (rest, o) := o.take bytes
      if rest.isEmpty then (.done, o)
      else match o.refusal with
        | some reason => (.failed (writeFault stage reason), o)
        | none => (.waiting ⟨stage, rest⟩, o)

def flush (o : Outlet) : Sent :=
  match o.flushFault with
  | some reason => .failed (writeFault .flush reason)
  | none => .done

def sendDelimiter (o : Outlet) (rest : Bytes) : Sent × Outlet :=
  match o.write .delimiter rest with
  | (.done, o) => (o.flush, o)
  | stopped => stopped

def send (o : Outlet) (s : Sending) : Sent × Outlet :=
  match s.stage with
  | .frame =>
    match o.write .frame s.rest with
    | (.done, o) => o.sendDelimiter [Ascii.nul]
    | stopped => stopped
  | .delimiter => o.sendDelimiter s.rest
  | .flush => (o.flush, o)

def close (o : Outlet) : Except Error Unit × Outlet :=
  match o.closeFault with
  | some reason => (.error (.io reason), o)
  | none => (.ok (), { o with shut := true })

def collect (o : Outlet) : Bytes × Outlet := (o.accepted, { o with accepted := [] })

end Outlet

end DevTools
