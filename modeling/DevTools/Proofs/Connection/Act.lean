import DevTools.Connection.Api
import DevTools.Proofs.Event.Stream
import DevTools.Proofs.Trace
/- Whoever has something to do with a connection acts in any order: its owner, its callers and handlers, its reader and
   writer, the clock, and the far end. -/

set_option autoImplicit false

namespace DevTools

def Caller.call? : Caller → Option Call
  | sending call _ | asking _ _ call _ => some call
  | awaiting _ w | collecting w => some w.call
  | _ => none

def Caller.sent? : Caller → Option Call
  | sending call _ | asking _ _ call _ => some call
  | _ => none

def Caller.stream? : Caller → Option Nat
  | listening w _ => some w.stream
  | _ => none

inductive Far where
  -- What a pipe gives, byte by byte.
  | arrive (arrivals : List Arrival)
  | message (message : SocketMessage)
  | hand (handed : Handed)
  | hangUp
  | snap
  -- How a pipe takes bytes from now on.
  | pace (room : Option Nat) (refusal flushFault closeFault : Option String)
  -- How a transport in memory behaves from now on.
  | script (stalled : Bool) (failWrite : Option String) (failClose : Bool)
  | look

def Link.far (l : Link) : Far → Link
  | .arrive arrivals =>
      match l.transport with
      | .pipe inlet outlet =>
          if l.deaf || inlet.ended then l
          else l.withTransport (.pipe { inlet with queue := inlet.queue ++ arrivals } outlet)
      | _ => l
  | .message m => (l.post m).2
  | .hand handed => (l.hand handed).2
  | .hangUp => l.hangUp
  | .snap => l.snap
  | .pace room refusal flushFault closeFault =>
      match l.transport with
      | .pipe inlet outlet => l.withTransport (.pipe inlet { outlet with room, refusal, flushFault, closeFault })
      | _ => l
  | .script stalled failWrite failClose =>
      match l.transport with
      | .memory m => l.withTransport (.memory { m with stalled, failWrite, failClose })
      | _ => l
  | .look => l.collect.2

theorem Link.deliver_far (l : Link) (frame : Bytes) : ∃ deed, (l.deliver frame).2 = l.far deed := by
  cases transport : l.transport with
  | memory m => exact ⟨.hand (.frame frame), by simp only [deliver, transport, far]⟩
  | socket s =>
      exact ⟨.message (if (Utf8.decode? frame).isSome then .text frame else .binary frame),
        by simp only [deliver, transport, far]⟩
  | pipe inlet outlet =>
      refine ⟨.arrive ((frame ++ [Ascii.nul]).map .byte), ?_⟩
      have some_ : (frame ++ [Ascii.nul]).isEmpty = false := by simp
      simp only [deliver, pour, transport, far, some_, Bool.false_eq_true, if_false, Inlet.feed]
      split <;> rfl

def inMemory : Link := { transport := .memory {} }

inductive Operation where
  | send (asked : Asked)
  | ask (use : Use) (cancel : Option Token) (asked : Asked)
  | execute (cancel : Option Token) (command : Command) (scope : Option SessionId)
  | attach (target : TargetId) (cancel : Option Token)
  | detach (session : SessionId) (cancel : Option Token)
  | waitForTarget (target : TargetId) (milliseconds : Nat)
  | waitForEvent (filter : Filter) (milliseconds : Nat)
  | waitForCall (wait : CallWait)
  | waitForNext (stream milliseconds : Nat)
  | close
  | waitUntilClosed

namespace Connection

inductive Act where
  | move (activity : Activity)
  | begin (operation : Operation)
  | abort (key : Nat)
  | release
  | purge
  | subscribe (filter : Filter)
  | onEvent (filter : Filter) (delay : Nat) (answer : Nat → Event → Except Error Unit)
  | cancelHandler (stream : Nat)
  | recv (stream : Nat)
  | drain (stream : Nat)
  | dropStream (stream : Nat)
  | poll (call : Call)
  | dropCall (call : Call)
  | advance (milliseconds : Nat)
  | fire (token : Token)
  | far (deed : Far)

def isFreeCall (c : Connection) (call : Call) : Bool :=
  c.hub.calls.slots.any (·.call == call) && !c.callers.any (·.2.call? == some call)

def isFreeStream (c : Connection) (stream : Nat) : Bool :=
  c.hub.router.streams.any (·.id == stream) && !c.callers.any (·.2.stream? == some stream) &&
    !c.handlers.any (·.stream == stream)

def start (c : Connection) : Operation → Connection
  | .send asked => (c.send asked).2
  | .ask use cancel asked => (c.ask use cancel asked).2
  | .execute cancel command scope => (c.execute cancel command scope).2
  | .attach target cancel => (c.attach target cancel).2
  | .detach session cancel => (c.detach session cancel).2
  | .waitForTarget target milliseconds => (c.waitForTarget target milliseconds).2
  | .waitForEvent filter milliseconds => (c.waitForEvent filter milliseconds).2
  | .waitForCall w => if c.isFreeCall w.call then (c.waitForCall w).2 else c
  | .waitForNext stream milliseconds =>
      if c.isFreeStream stream then (c.waitForNext stream milliseconds).2 else c
  | .close => c.close.2
  | .waitUntilClosed => c.waitUntilClosed.2

def act (c : Connection) : Act → Connection
  | .move activity => c.move activity
  | .begin operation => c.start operation
  | .abort key => (c.abort key).2
  | .release => c.release
  | .purge => c.purge.2
  | .subscribe filter => { c with hub.router := (c.hub.router.subscribe filter).2 }
  | .onEvent filter delay answer => (c.onEvent filter delay answer).2
  | .cancelHandler stream => c.cancelHandler stream
  | .recv stream => if c.isFreeStream stream then { c with hub.router := (c.hub.router.take stream).2 } else c
  | .drain stream => if c.isFreeStream stream then { c with hub.router := (c.hub.router.drain stream).2 } else c
  | .dropStream stream => if c.isFreeStream stream then { c with hub.router := c.hub.router.drop stream } else c
  | .poll call =>
      if c.isFreeCall call then
        match c.hub.calls.collect call with
        | some (_, calls) => { c with hub.calls := calls }
        | none => c
      else c
  | .dropCall call => if c.isFreeCall call then { c with hub.calls := c.hub.calls.abandon call } else c
  | .advance milliseconds => c.advance milliseconds
  | .fire token => c.fire token
  | .far deed => { c with link := c.link.far deed }

def run (c : Connection) (acts : List Act) : Connection := acts.foldl act c

theorem run_append (c : Connection) (before after : List Act) : c.run (before ++ after) = (c.run before).run after :=
  List.foldl_append

theorem run_concat (c : Connection) (acts : List Act) (a : Act) : c.run (acts ++ [a]) = (c.run acts).act a :=
  run_append c acts [a]

theorem settle_run (c : Connection) : ∃ acts, c.settle = c.run acts := by
  obtain ⟨moves, made⟩ := schedule.run_moves c.work (schedule.notice c {}) c
  refine ⟨moves.map .move, ?_⟩
  rw [run, List.foldl_map]
  exact made

theorem hear_run (frames : List Bytes) (c : Connection) (sent : Nat) :
    ∃ acts, (c.hearAfter sent frames).2 = c.run acts := by
  induction frames generalizing c sent with
  | nil => exact ⟨[], rfl⟩
  | cons frame frames ih =>
      have settles : ∃ acts, (if c.link.batch?.any (· ≤ sent) then c.settle else c) = c.run acts := by
        split
        · exact settle_run c
        · exact ⟨[], rfl⟩
      obtain ⟨first, settled⟩ := settles
      obtain ⟨deed, delivered⟩ := (c.run first).link.deliver_far frame
      obtain ⟨rest, heard⟩ := ih ((c.run first).act (.far deed)) (if c.link.batch?.any (· ≤ sent) then 1 else sent + 1)
      refine ⟨first ++ .far deed :: rest, ?_⟩
      rw [run_append]
      simp only [hearAfter, settled, delivered]
      exact heard

def issues? (c : Connection) (a : Act) : Option Call :=
  match a with
  | .begin _ => ((c.act a).caller? c.nextCaller).bind Caller.sent?
  | _ => none

def hears? (c : Connection) (a : Act) : Option Response :=
  match a with
  | .move .reader =>
      if c.hub.isClosed then none
      else match c.link.receive.1 with
        | .frame bytes => match Message.decode bytes with
            | .ok (.response r) => some r
            | _ => none
        | _ => none
  | _ => none

def hands? (c : Connection) (a : Act) : Option (Call × Outcome) :=
  match a with
  | .poll call => if c.isFreeCall call then (c.hub.calls.collect call).map fun settled => (call, settled.1) else none
  | .move (.caller key) =>
      match c.caller? key with
      | some (.awaiting _ w) | some (.collecting w) => (w.finish? c.clock c.hub.calls).map fun settled =>
          (w.call, settled.1)
      | _ => none
  | _ => none

def yields (c : Connection) (a : Act) (stream : Nat) : List Event :=
  match a with
  | .recv own => if c.isFreeStream own && own == stream then c.hub.router.handed stream else []
  | .drain own => if c.isFreeStream own && own == stream then (c.hub.router.drain stream).1 else []
  | .move (.caller key) =>
      match c.caller? key with
      | some (.listening w _) => if w.stream == stream then c.hub.router.handed stream else []
      | _ => []
  | .move (.handler own) =>
      match c.handler? own with
      | some h => if own == stream && h.busy.isNone && !h.cancelled then c.hub.router.handed stream else []
      | none => []
  | _ => []

def isHeld (c : Connection) : Bool := c.held || c.callers.any (·.2.holdsConnection)

-- What makes the connection close: its owner says so, the far end has gone, reading or writing fails, or
-- the last handle goes.
def trigger? (c : Connection) (a : Act) : Option CloseReason :=
  match a with
  | .begin .close => some .closedHere
  | .move .reader =>
      match c.link.receive.1 with
      | .ended => some .remoteHangup
      | .failed fault => some (.readFailed fault.message)
      | _ => none
  | .move .writer =>
      match c.writer with
      | .sending _ left =>
          match (c.link.send left).1 with
          | .failed fault => some (.writeFailed fault.message)
          | _ => none
      | _ => none
  | _ => if c.isHeld && !(c.act a).isHeld then some .closedHere else none

end Connection

end DevTools
