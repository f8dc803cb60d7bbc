import DevTools.Transport.Memory
import DevTools.Transport.Pipe
import DevTools.Transport.Socket

set_option autoImplicit false

namespace DevTools

inductive Transport where
  | pipe (inlet : Inlet) (outlet : Outlet)
  | socket (socket : Socket)
  | memory (memory : Memory)
deriving Repr

-- `deaf`: nobody reads on this side any more. `endSeen`: the far end has found that this side writes no
-- more.
structure Link where
  transport : Transport
  deaf : Bool := false
  endSeen : Bool := false
deriving Repr

namespace Link

def withTransport (l : Link) (transport : Transport) : Link := { l with transport }

def receive (l : Link) : Received × Link :=
  match l.transport with
  | .pipe inlet outlet => let (r, inlet) := inlet.receive; (r, l.withTransport (.pipe inlet outlet))
  | .socket s => let (r, s) := s.receive; (r, l.withTransport (.socket s))
  | .memory m => let (r, m) := m.receive; (r, l.withTransport (.memory m))

def send (l : Link) (sending : Sending) : Sent × Link :=
  match l.transport with
  | .pipe inlet outlet => let (r, outlet) := outlet.send sending; (r, l.withTransport (.pipe inlet outlet))
  | .socket s => let (r, s) := s.send sending.rest; (r, l.withTransport (.socket s))
  | .memory m => let (r, m) := m.send sending; (r, l.withTransport (.memory m))

def close (l : Link) : Except Error Unit × Link :=
  match l.transport with
  | .pipe inlet outlet => let (r, outlet) := outlet.close; (r, l.withTransport (.pipe inlet outlet))
  | .socket s => let (r, s) := s.close; (r, l.withTransport (.socket s))
  | .memory m => let (r, m) := m.close; (r, l.withTransport (.memory m))

def forget (l : Link) : Link :=
  match l.transport with
  | .pipe inlet outlet => l.withTransport (.pipe inlet.forget outlet)
  | _ => l

def deafen (l : Link) : Link := { l with deaf := true }

def turn? (l : Link) : Option Nat :=
  match l.transport with
  | .memory _ => some Memory.turn
  | _ => none

def backlog (l : Link) : Nat :=
  match l.transport with
  | .pipe inlet _ => inlet.queue.length
  | .socket s => s.inbox.length
  | .memory m => m.inbox.length

def splitFrames : (begun : Bytes) → Bytes → List Bytes × Bytes
  | begun, [] => ([], begun.reverse)
  | begun, b :: rest =>
    if b = Ascii.nul then
      let (frames, left) := splitFrames [] rest
      (begun.reverse :: frames, left)
    else splitFrames (b :: begun) rest

def isGone (l : Link) : Bool :=
  match l.transport with
  | .pipe inlet _ => inlet.ended
  | .socket s => s.vanished
  | .memory _ => false

-- Is the far end still there to find out, and has this side written its last?
def showsEnd (l : Link) : Bool :=
  match l.transport with
  | .pipe _ outlet => outlet.shut && !outlet.broken
  | .socket s => s.closeSent && !s.vanished
  | .memory m => m.closed

def collect (l : Link) : List Bytes × Link :=
  let l := { l with endSeen := l.endSeen || l.showsEnd }
  match l.transport with
  | .pipe inlet outlet =>
    if outlet.broken then ([], l)
    else
      let (frames, left) := splitFrames [] outlet.accepted
      (frames, l.withTransport (.pipe inlet { outlet with accepted := left }))
  | .socket s =>
    if s.vanished then ([], l)
    else let ((frames, _), s) := s.collect; (frames, l.withTransport (.socket s))
  | .memory m => let (frames, m) := m.collect; (frames, l.withTransport (.memory m))

def pour (l : Link) (bytes : Bytes) : Bool × Link :=
  match l.transport with
  | .pipe inlet outlet =>
    if bytes.isEmpty then (true, l)
    else if l.deaf || inlet.ended then (false, l)
    else (true, l.withTransport (.pipe (inlet.feed bytes) outlet))
  | _ => (false, l)

def post (l : Link) (m : SocketMessage) : Bool × Link :=
  match l.transport with
  | .socket s => if l.deaf then (false, l) else let (ok, s) := s.feed m; (ok, l.withTransport (.socket s))
  | _ => (false, l)

def hand (l : Link) (h : Handed) : Bool × Link :=
  match l.transport with
  | .memory m => if l.deaf then (false, l) else (true, l.withTransport (.memory { m with inbox := m.inbox ++ [h] }))
  | _ => (false, l)

def deliver (l : Link) (frame : Bytes) : Bool × Link :=
  match l.transport with
  | .pipe .. => l.pour (frame ++ [Ascii.nul])
  | .socket _ => l.post (if (Utf8.decode? frame).isSome then .text frame else .binary frame)
  | .memory _ => l.hand (.frame frame)

def batch? (l : Link) : Option Nat :=
  match l.transport with
  | .socket _ => some Socket.batch
  | _ => none

def hangUp (l : Link) : Link :=
  match l.transport with
  | .pipe inlet outlet => l.withTransport (.pipe { inlet with ended := true } outlet)
  | .socket s => l.withTransport (.socket s.vanish)
  | .memory _ => (l.hand .hangup).2

def snap (l : Link) : Link :=
  match l.transport with
  | .pipe inlet outlet => l.withTransport (.pipe inlet { outlet with broken := true })
  | _ => l

end Link

end DevTools
