import DevTools.Connection.Schedule

set_option autoImplicit false

namespace DevTools.Connection

def enter (c : Connection) (begun : Progress × Hub) : Nat × Connection :=
  let key := c.nextCaller
  let c := { c with hub := begun.2, nextCaller := key + 1 }
  (key, match begun.1 with
    | .inl caller => { c with callers := c.callers ++ [(key, caller)] }
    | .inr result => { c with finished := c.finished ++ [(key, result)] }.closeUnheld)

def send (c : Connection) (asked : Asked) : Nat × Connection :=
  c.enter (Caller.beginSend asked c.hub)

def ask (c : Connection) (use : Use) (cancel : Option Token) (asked : Asked) : Nat × Connection :=
  c.enter (Caller.beginAsk use cancel asked c.clock c.hub)

def execute (c : Connection) (cancel : Option Token) (command : Command) (scope : Option SessionId) :
    Nat × Connection :=
  c.enter (Caller.beginCommand command.use cancel command scope c.clock c.hub)

def attach (c : Connection) (target : TargetId) (cancel : Option Token) : Nat × Connection :=
  c.enter (Caller.beginAttach target cancel c.clock c.hub)

def detach (c : Connection) (session : SessionId) (cancel : Option Token) : Nat × Connection :=
  c.enter (Caller.beginDetach session cancel c.clock c.hub)

def waitForTarget (c : Connection) (target : TargetId) (milliseconds : Nat) : Nat × Connection :=
  c.enter (Caller.beginSeek target milliseconds c.clock c.hub)

def waitForEvent (c : Connection) (filter : Filter) (milliseconds : Nat) : Nat × Connection :=
  c.enter (Caller.beginListen filter milliseconds c.clock c.hub)

def waitForCall (c : Connection) (wait : CallWait) : Nat × Connection :=
  c.enter (.inl (.collecting wait), c.hub)

def waitForNext (c : Connection) (stream milliseconds : Nat) : Nat × Connection :=
  c.enter (.inl (.listening ⟨stream, c.clock.limit milliseconds⟩ false), c.hub)

-- Closes the connection. The first to do so waits until the reader and the writer have ended.
def close (c : Connection) : Nat × Connection :=
  let joins := !c.joined
  let c := { c.shutdown .closedHere with joined := true }
  c.enter (.inl (.closing joins), c.hub)

def waitUntilClosed (c : Connection) : Nat × Connection :=
  c.enter (.inl .untilClosed, c.hub)

def abort (c : Connection) (key : Nat) : Bool × Connection :=
  match c.caller? key with
  | none => (false, c)
  | some caller => (true, ({ c.withoutCaller key with hub := caller.drop c.hub }).closeUnheld)

def release (c : Connection) : Connection := { c with held := false }.closeUnheld

def advance (c : Connection) (milliseconds : Nat) : Connection :=
  { c with clock := c.clock.advance milliseconds }

def fire (c : Connection) (token : Token) : Connection := { c with clock := c.clock.fire token }

-- Calls a handler, which takes `delay` milliseconds, for each event that the filter accepts.
def onEvent (c : Connection) (filter : Filter) (delay : Nat)
    (answer : Nat → Event → Except Error Unit := fun _ _ => .ok ()) : Nat × Connection :=
  let (stream, router) := c.hub.router.subscribe filter
  (stream, { c with hub.router := router, handlers := c.handlers ++ [{ stream, delay, answer }] })

def cancelHandler (c : Connection) (stream : Nat) : Connection :=
  { c with handlers := c.handlers.map fun h => if h.stream == stream then { h with cancelled := true } else h }

def describeHandler (stream : Nat) : String :=
  s!"Subscription \x7b id: {stream}, active: true \x7d"

def describeProxy (session : Option SessionId) (cancelled : Bool) : String :=
  let shown := match session with
    | none => "None"
    | some session => "Some(SessionId(" ++ Text.debug session.text ++ "))"
  s!"Channel \x7b session: {shown}, cancelled: {cancelled} \x7d"

def session? (c : Connection) (session : SessionId) : Option Session := c.hub.sessions.get? session

def purge (c : Connection) : Nat × Connection :=
  let (n, sessions) := c.hub.sessions.purge
  (n, { c with hub.sessions := sessions })

-- The far end sends frames, `sent` of them in its turn so far. When its turn is over whoever can move
-- does so. Says whether all have got through.
def hearAfter (c : Connection) (sent : Nat) : List Bytes → Bool × Connection
  | [] => (true, c)
  | frame :: frames =>
    let spent := c.link.batch?.any (· ≤ sent)
    let c := if spent then c.settle else c
    let (ok, link) := c.link.deliver frame
    let (others, c) := { c with link }.hearAfter (if spent then 1 else sent + 1) frames
    (ok && others, c)

def hear (c : Connection) (frames : List Bytes) : Bool × Connection :=
  c.hearAfter 0 frames

-- What has come about since the last time: results, handled events, and frames that the far end has
-- got.
def collect (c : Connection) : (List (Nat × Except Error Answer) × List (Nat × Event) × List Bytes) × Connection :=
  let (frames, link) := c.link.collect
  ((c.finished, c.handled, frames), { c with link, finished := [], handled := [] })

end DevTools.Connection
