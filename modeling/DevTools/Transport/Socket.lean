import DevTools.Transport.Result

set_option autoImplicit false

namespace DevTools

-- Of pings and pongs only the length in bytes counts.
inductive SocketMessage where
  | text (bytes : Bytes)
  | binary (bytes : Bytes)
  | ping (length : Nat)
  | pong (length : Nat)
  | close
deriving DecidableEq, Repr

inductive Handshake where
  | active
  | closedHere
  | closedThere
  | acknowledged
  | finished
deriving DecidableEq, Repr

structure Socket where
  handshake : Handshake := .active
  inbox : List SocketMessage := []
  -- The far end's close message is not answered yet; the next read or close does so first.
  replyOwed : Bool := false
  -- Something could not be written and is kept for the next time.
  unsent : Bool := false
  ended : Bool := false
  -- Texts under way to the far end, and whether a close message follows them or has arrived.
  outbox : List Bytes := []
  closeSent : Bool := false
  closeSeen : Bool := false
  -- The far end: it has sent a close message; it is gone.
  farClosed : Bool := false
  vanished : Bool := false
deriving DecidableEq, Repr

namespace Socket

def longestControl : Nat := 125

-- What one frame of the protocol's own may carry. A message comes in one such frame, not in fragments.
def longestPayload : Nat := 16 * 1024 * 1024

def brokenPipe : String := "IO error: broken pipe"

def afterClosing : String := "WebSocket protocol error: Sending after closing is not allowed"

def noHandshake : String := "WebSocket protocol error: Connection reset without closing handshake"

def controlTooBig : String :=
  "WebSocket protocol error: Control frame too big (payload must be 125 bytes or less)"

def messageTooLong (length : Nat) : String := s!"Space limit exceeded: Message too long: {length} > {longestPayload}"

def controlFault (length : Nat) : String := if longestPayload < length then messageTooLong length else controlTooBig

def closedConnection : String := "Trying to work with closed connection"

def flush (s : Socket) : Bool × Socket :=
  if s.vanished then
    let kept := s.replyOwed || s.unsent
    (!kept, { s with replyOwed := false, unsent := kept })
  else (true, { s with replyOwed := false, closeSent := s.closeSent || s.replyOwed })

def canRead (s : Socket) : Bool := s.handshake == .active || s.handshake == .closedHere

def failRead (s : Socket) (reason : String) : Received × Socket :=
  (.failed (.transport s!"WebSocket read failed: {reason}"), { s with ended := true })

def atEnd (s : Socket) : Received × Socket :=
  let finished := { s with handshake := .finished }
  if s.canRead then finished.failRead noHandshake else (.ended, { finished with ended := true })

-- Reads on through the messages. A ping is answered at once, unless this side is closing; a close
-- message ends the stream and is answered later.
def readFrom (s : Socket) : List SocketMessage → Received × Socket
  | [] =>
    let s := { s with inbox := [] }
    if s.vanished then s.atEnd else (.waiting, s)
  | m :: rest =>
    let s := { s with inbox := rest }
    match m with
    | .text bytes | .binary bytes =>
      if longestPayload < bytes.length then s.failRead (messageTooLong bytes.length) else (.frame bytes, s)
    | .ping length =>
      if longestControl < length then s.failRead (controlFault length)
      else if s.handshake == .active && s.vanished then { s with unsent := true }.failRead brokenPipe
      else readFrom s rest
    | .pong length => if longestControl < length then s.failRead (controlFault length) else readFrom s rest
    | .close =>
      (.ended, if s.handshake == .active then { s with handshake := .closedThere, replyOwed := true }
        else { s with handshake := .acknowledged })

def receive (s : Socket) : Received × Socket :=
  if s.ended then (.ended, s)
  else if s.replyOwed then
    match s.flush with
    | (true, s) => s.readFrom s.inbox
    | (false, s) => s.failRead brokenPipe
  else s.readFrom s.inbox

def sendFault (reason : String) : Error := .transport s!"Failed to send WebSocket message: {reason}"

def send (s : Socket) (frame : Bytes) : Sent × Socket :=
  match Utf8.decode frame with
  | .error fault => (.failed (.transport s!"Frame is not valid UTF-8: {fault.message}"), s)
  | .ok _ =>
    match s.handshake with
    | .finished => (.failed (sendFault closedConnection), s)
    | .active =>
      if s.vanished then (.failed (sendFault brokenPipe), { s with unsent := true })
      else (.done, { s with outbox := s.outbox ++ [frame] })
    | _ => (.failed (sendFault afterClosing), s)

def close (s : Socket) : Except Error Unit × Socket :=
  let s := if s.handshake == .active then { s with handshake := .closedHere, replyOwed := true } else s
  match s.flush with
  | (true, s) => (.ok (), s)
  | (false, s) => (.error (.transport s!"Failed to close WebSocket: {brokenPipe}"), s)

def batch : Nat := 128

def feed (s : Socket) (m : SocketMessage) : Bool × Socket :=
  if s.vanished || s.farClosed then (false, s)
  else (true, { s with inbox := s.inbox ++ [m], farClosed := m == .close })

def vanish (s : Socket) : Socket := { s with vanished := true }

-- What the far end finds when it looks: the texts that have arrived, and whether the close message
-- has, which it finds once. It answers a close message unless it sent one itself.
def collect (s : Socket) : (List Bytes × Bool) × Socket :=
  let answers := s.closeSent && !s.farClosed
  ((s.outbox, s.closeSent && !s.closeSeen), { s with
    outbox := []
    inbox := if answers then s.inbox ++ [.close] else s.inbox
    farClosed := s.farClosed || answers
    closeSeen := s.closeSent })

end Socket

end DevTools
