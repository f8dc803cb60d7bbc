import DevTools.Connection.Caller
import DevTools.Connection.Intake
import DevTools.Transport.Link
/-
A connection over a link: one reader, one writer, and any number of callers and event handlers, each of which makes
one move at a time. What is assumed:

One thread runs them all, and another comes on only where one waits. So a move is never seen half done.

Nothing panics but a read of a pipe whose limit has no number. In particular no event buffer is larger than a
channel may be; subscribing to a larger one would panic.

Ids of calls are numbers of 64 bits and wrap. All other ids, and the counts of frames and events, have no bound.

A link is closed at once, and each message over a WebSocket comes and goes in one frame of that protocol.
-/

set_option autoImplicit false

namespace DevTools

inductive Writer where
  | idle
  | sending (outbound : Outbound) (left : Sending)
  | ended
deriving Repr

-- A handler is called for each event of its stream, one at a time, takes some time over it, and may fail.
structure Handler where
  stream : Nat
  delay : Nat
  -- What comes of a call, by how many were made before.
  answer : Nat → Event → Except Error Unit := fun _ _ => .ok ()
  made : Nat := 0
  cancelled : Bool := false
  -- The event in hand, and when it is done with.
  busy : Option (Event × Nat) := none

structure Complaint where
  stream : Nat
  method : String
  fault : Error
deriving Repr

def Handler.complaint? (h : Handler) (e : Event) : Option Complaint :=
  match h.answer h.made e with
  | .ok () => none
  | .error fault => some ⟨h.stream, e.method, fault⟩

structure Connection where
  hub : Hub
  link : Link
  clock : Clock := {}
  readerEnded : Bool := false
  writer : Writer := .idle
  -- Somebody is told, or was to be told, when the reader and the writer end.
  joined : Bool := false
  held : Bool := true
  callers : List (Nat × Caller) := []
  nextCaller : Nat := 0
  handlers : List Handler := []
  -- Callers that are done, and what they got; events that handlers have been called with.
  finished : List (Nat × Except Error Answer) := []
  handled : List (Nat × Event) := []
  complaints : List Complaint := []

namespace Connection

def ofLink (config : Config) (link : Link) : Connection := { hub := .ofConfig config, link }

def writerEnded (c : Connection) : Bool :=
  match c.writer with
  | .ended => true
  | _ => false

def tasksEnded (c : Connection) : Bool := c.readerEnded && c.writerEnded

def shutdown (c : Connection) (reason : CloseReason) : Connection :=
  { c with hub := c.hub.shutdown reason }

def closeUnheld (c : Connection) : Connection :=
  if c.held || c.callers.any (·.2.holdsConnection) then c else c.shutdown .closedHere

-- The reader also moves to take in what makes no frame yet.
def readerReady (c : Connection) : Bool :=
  let (received, link) := c.link.receive
  !c.readerEnded && (c.hub.isClosed || !received.isWaiting || link.backlog != c.link.backlog)

def endReader (c : Connection) : Connection := { c with readerEnded := true, link := c.link.deafen }

-- Takes in one frame, or ends. Once the connection is closed no frame is taken in. A reader that panics
-- ends without closing it.
def moveReader (c : Connection) : Connection :=
  if c.hub.isClosed then c.endReader
  else match c.link.receive with
    | (.frame bytes, link) => { c with link, hub := c.hub.takeFrame bytes }
    | (.ended, link) => ({ c with link }.shutdown .remoteHangup).endReader
    | (.failed fault, link) => ({ c with link }.shutdown (.readFailed fault.message)).endReader
    | (.waiting, link) => { c with link }
    | (.panicked, link) => { c with link }.endReader

def writerReady (c : Connection) : Bool :=
  match c.writer with
  | .idle => c.hub.isClosed || !c.hub.outbound.isEmpty
  | .sending _ left =>
    c.hub.isClosed || (match (c.link.send left).1 with
      | .waiting rest => rest != left
      | _ => true)
  | .ended => false

def acknowledge (c : Connection) (call : Call) (result : Written) : Connection :=
  { c with callers := c.callers.map fun (key, caller) => (key, caller.acknowledge call result) }

-- Refuses the frames that are still queued, and closes the link whatever that says.
def endWriter (c : Connection) : Connection :=
  let c := c.hub.outbound.foldl (fun c o => c.acknowledge o.call (.error .connectionClosed)) c
  { c with hub.outbound := [], link := c.link.close.2, writer := .ended }

def failWrite (c : Connection) (call : Call) (fault : Error) : Connection :=
  ((c.acknowledge call (.error fault)).shutdown (.writeFailed fault.message)).endWriter

-- Takes up the oldest frame, or goes on with the one in hand. A frame that goes through counts before
-- the end of the connection.
def moveWriter (c : Connection) : Connection :=
  match c.writer with
  | .ended => c
  | .idle =>
    if c.hub.isClosed then c.endWriter
    else match c.hub.outbound with
      | [] => c
      | o :: rest => { c with hub.outbound := rest, writer := .sending o (.ofFrame o.frame) }
  | .sending o left =>
    match c.link.send left with
    | (.done, link) => { c with link, writer := .idle }.acknowledge o.call (.ok ())
    | (.failed fault, link) => { c with link }.failWrite o.call fault
    | (.waiting left, link) =>
      let c := { c with link, writer := .sending o left }
      if c.hub.isClosed then c.failWrite o.call .connectionClosed else c

def caller? (c : Connection) (key : Nat) : Option Caller :=
  (c.callers.find? fun entry => entry.1 == key).map (·.2)

def withoutCaller (c : Connection) (key : Nat) : Connection :=
  { c with callers := c.callers.filter fun entry => entry.1 != key }

def callerReady (c : Connection) (key : Nat) : Bool :=
  (c.caller? key).any fun caller => caller.ready c.clock c.tasksEnded c.hub

def moveCaller (c : Connection) (key : Nat) : Connection :=
  match c.caller? key with
  | none => c
  | some caller =>
    match caller.move c.clock c.tasksEnded c.hub with
    | (.inl caller, hub) =>
      { c with hub, callers := c.callers.map fun old => if old.1 == key then (key, caller) else old }
    | (.inr result, hub) => { c.withoutCaller key with hub, finished := c.finished ++ [(key, result)] }

def handler? (c : Connection) (stream : Nat) : Option Handler := c.handlers.find? (·.stream == stream)

def handlerReady (c : Connection) (stream : Nat) : Bool :=
  (c.handler? stream).any fun h => match h.busy with
    | some (_, until_) => until_ ≤ c.clock.now
    | none => h.cancelled || c.hub.router.peek stream != .waiting

def putHandler (c : Connection) (h : Handler) : Connection :=
  { c with handlers := c.handlers.map fun old => if old.stream == h.stream then h else old }

def endHandler (c : Connection) (stream : Nat) : Connection :=
  { c with
    hub.router := c.hub.router.drop stream
    handlers := c.handlers.filter fun h => h.stream != stream }

def finishCall (c : Connection) (h : Handler) (e : Event) : Connection :=
  { c.putHandler { h with busy := none, made := h.made + 1 } with
    handled := c.handled ++ [(h.stream, e)]
    complaints := c.complaints ++ (h.complaint? e).toList }

-- A cancelled handler begins with no other event; one in hand it finishes.
def moveHandler (c : Connection) (stream : Nat) : Connection :=
  match c.handler? stream with
  | none => c
  | some h =>
    match h.busy with
    | some (e, until_) =>
      if until_ ≤ c.clock.now then c.finishCall h e else c
    | none =>
      if h.cancelled then c.endHandler stream
      else match c.hub.router.take stream with
        | (.event e, router) =>
          { c.putHandler { h with busy := some (e, c.clock.now + h.delay) } with hub.router := router }
        | (.ended, _) => c.endHandler stream
        | (.waiting, _) => c

end Connection

end DevTools
