import DevTools.Call.Wait
import DevTools.Connection.Hub
import DevTools.Event.Wait
import DevTools.Session.Wait

set_option autoImplicit false

namespace DevTools

inductive Use where
  | payload
  | sessionId
  | targets
  | nothing
  | attach (target : TargetId)
  | value
  | attachment
  | ignored
deriving DecidableEq, Repr

def Command.use : Command → Use
  | attachToTarget .. => .sessionId
  | getTargets => .targets
  | detachFromTarget .. | setAutoAttach .. => .nothing

inductive Answer where
  | call (call : Call)
  | payload (payload : Payload)
  | sessionId (session : SessionId)
  | targets (infos : List TargetInfo)
  | done
  | session (session : Session)
  | value (value : Json)
  | attachment (attached : AttachedToTarget)
  | response (response : Response)
  | event (event : Event)
  | closed

abbrev Written := Except Error Unit

inductive Caller where
  | sending (call : Call) (written : Option Written)
  | asking (use : Use) (cancel : Option Token) (call : Call) (written : Option Written)
  | awaiting (use : Use) (wait : CallWait)
  | collecting (wait : CallWait)
  -- Waits for an event; a stream of its own goes when the wait is over.
  | listening (wait : EventWait) (own : Bool)
  | seeking (wait : TargetWait)
  -- Waits for the reader and the writer to end, or for nothing if another does.
  | closing (joins : Bool)
  | untilClosed

namespace Use

def ofJson {α : Type} (r : Except Json.Error α) (answer : α → Answer) : Except Error Answer :=
  match r with
  | .ok a => .ok (answer a)
  | .error fault => .error (.json fault)

-- The result as its caller wants it. A session just attached is registered; it may be detached by
-- then.
def apply (use : Use) (payload : Payload) (h : Hub) : Except Error Answer × Hub :=
  let bytes := Utf8.encode payload.text
  match use with
  | .payload => (.ok (.payload payload), h)
  | .sessionId => (ofJson (attachReply.parse bytes) .sessionId, h)
  | .targets => (ofJson (targetsReply.parse bytes) .targets, h)
  | .nothing => (ofJson (emptyReply.parse bytes) fun _ => .done, h)
  | .value => (ofJson (Json.parse bytes) .value, h)
  | .attachment => (ofJson (AttachedToTarget.record.parse bytes) .attachment, h)
  | .ignored => (ofJson (Json.parse bytes) fun _ => .done, h)
  | .attach target =>
    match attachReply.parse bytes with
    | .error fault => (.error (.json fault), h)
    | .ok id =>
      let (session, sessions) := h.sessions.register id target
      (if session.detached then .error (.sessionDetached session.id) else .ok (.session session),
        { h with sessions })

def conclude (use : Use) (outcome : Outcome) (h : Hub) : Except Error Answer × Hub :=
  match outcome with
  | .error fault => (.error fault, h)
  | .ok response =>
    match response.outcome with
    | .error refused => (.error (.protocol refused), h)
    | .ok result => use.apply result h

end Use

abbrev Progress := Caller ⊕ Except Error Answer

namespace Caller

-- Those that keep the connection alive: all but the ones that only hold a call or a stream.
def holdsConnection : Caller → Bool
  | collecting _ => false
  | listening _ own => own
  | _ => true

def ready (c : Caller) (clock : Clock) (tasksEnded : Bool) (h : Hub) : Bool :=
  match c with
  | sending _ written => written.isSome
  | asking _ cancel _ written => clock.hasFired cancel || written.isSome
  | awaiting _ w | collecting w => w.ready clock h.calls
  | listening w _ => w.ready clock h.router
  | seeking w => h.isClosed || w.ready clock h.sessions
  | closing joins => !joins || tasksEnded
  | untilClosed => h.isClosed

def drop (c : Caller) (h : Hub) : Hub :=
  match c with
  | sending call _ | asking _ _ call _ => { h with calls := h.calls.abandon call }
  | awaiting _ w | collecting w => { h with calls := h.calls.abandon w.call }
  | listening w _ => { h with router := h.router.drop w.stream }
  | seeking w => { h with sessions := h.sessions.getUp w.sleeper }
  | closing _ | untilClosed => h

def fail (c : Caller) (fault : Error) (h : Hub) : Progress × Hub :=
  (.inr (.error fault), c.drop h)

-- The time that a request may take counts from when its frame is written.
def requestLimit (clock : Clock) (h : Hub) : Option Limit :=
  h.config.requestTimeoutMs.map fun ms => clock.limit ms.toNat

def ofLook (h : Hub) (look : Look × SessionTable) : Progress × Hub :=
  (match look.1 with
    | .asleep w => .inl (seeking w)
    | .settled result => .inr (result.map .session), { h with sessions := look.2 })

def move (c : Caller) (clock : Clock) (tasksEnded : Bool) (h : Hub) : Progress × Hub :=
  match c with
  | sending call written =>
    match written with
    | none => (.inl c, h)
    | some (.ok ()) => (.inr (.ok (.call call)), h)
    | some (.error fault) => c.fail fault h
  | asking use cancel call written =>
    if clock.hasFired cancel then c.fail .cancelled h
    else match written with
      | none => (.inl c, h)
      | some (.ok ()) => (.inl (awaiting use ⟨call, cancel, requestLimit clock h⟩), h)
      | some (.error fault) => c.fail fault h
  | awaiting use w =>
    match w.finish? clock h.calls with
    | none => (.inl c, h)
    | some (outcome, calls) =>
      let (answer, h) := use.conclude outcome { h with calls }
      (.inr answer, h)
  | collecting w =>
    match w.finish? clock h.calls with
    | none => (.inl c, h)
    | some (outcome, calls) => (.inr (outcome.map .response), { h with calls })
  | listening w own =>
    match w.finish? clock h.router with
    | none => (.inl c, h)
    | some (result, router) =>
      (.inr (result.map .event), { h with router := if own then router.drop w.stream else router })
  | seeking w =>
    if h.isClosed then c.fail .connectionClosed h
    else ofLook h (w.move clock h.sessions)
  | closing joins => if !joins || tasksEnded then (.inr (.ok .closed), h) else (.inl c, h)
  | untilClosed => if h.isClosed then (.inr (.ok .closed), h) else (.inl c, h)

def acknowledge (call : Call) (result : Written) (c : Caller) : Caller :=
  match c with
  | sending mine written => if mine = call then sending mine (some result) else sending mine written
  | asking use cancel mine written =>
    if mine = call then asking use cancel mine (some result) else asking use cancel mine written
  | c => c

def beginSend (asked : Asked) (h : Hub) : Progress × Hub :=
  match h.post asked with
  | (.ok call, h) => (.inl (sending call none), h)
  | (.error fault, h) => (.inr (.error fault), h)

-- A token that has fired already stops the request before it gets an id.
def beginAsk (use : Use) (cancel : Option Token) (asked : Asked) (clock : Clock) (h : Hub) : Progress × Hub :=
  if clock.hasFired cancel then (.inr (.error .cancelled), h)
  else match h.post asked with
    | (.ok call, h) => (.inl (asking use cancel call none), h)
    | (.error fault, h) => (.inr (.error fault), h)

def beginCommand (use : Use) (cancel : Option Token) (command : Command) (scope : Option SessionId)
    (clock : Clock) (h : Hub) : Progress × Hub :=
  beginAsk use cancel ⟨command.method, .payload ⟨command.params⟩, scope⟩ clock h

def beginAttach (target : TargetId) (cancel : Option Token) (clock : Clock) (h : Hub) : Progress × Hub :=
  beginCommand (.attach target) cancel (.attachFlattened target) none clock h

-- The session is detached here before the remote end is told, whatever that says.
def beginDetach (session : SessionId) (cancel : Option Token) (clock : Clock) (h : Hub) : Progress × Hub :=
  match h.sessions.get? session with
  | none => (.inr (.error (.sessionNotFound session)), h)
  | some _ =>
    match h.detachHere session with
    | (false, h) => (.inr (.ok .done), h)
    | (true, h) => beginCommand .nothing cancel (.detachFromTarget session) none clock h

def beginSeek (target : TargetId) (milliseconds : Nat) (clock : Clock) (h : Hub) : Progress × Hub :=
  if h.isClosed then (.inr (.error .connectionClosed), h)
  else ofLook h (TargetWait.look clock target (clock.limit milliseconds) h.sessions)

def beginListen (filter : Filter) (milliseconds : Nat) (clock : Clock) (h : Hub) : Progress × Hub :=
  let (stream, router) := h.router.subscribe filter
  (.inl (listening ⟨stream, clock.limit milliseconds⟩ true), { h with router })

end Caller

end DevTools
