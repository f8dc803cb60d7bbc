import DevTools.Call.Table
import DevTools.Event.Router
import DevTools.Config
import DevTools.Message.Params
import DevTools.Session.Table
/- What the reader, the writer and the callers of a connection share. It is torn down once, for the reason that comes first. -/

set_option autoImplicit false

namespace DevTools

inductive CloseReason where
  | closedHere
  | remoteHangup
  | readFailed (reason : String)
  | writeFailed (reason : String)
deriving DecidableEq, Repr

def CloseReason.message : CloseReason → String
  | closedHere => "closed locally"
  | remoteHangup => "remote hung up"
  | readFailed reason => s!"read failed: {reason}"
  | writeFailed reason => s!"write failed: {reason}"

-- The counts have no bound here. Those of a real connection are numbers of 64 bits and wrap.
structure Stats where
  orphanedResponses : Nat := 0
  malformedFrames : Nat := 0
  unroutedEvents : Nat := 0
  detachedSessionFrames : Nat := 0
  unexpectedRequests : Nat := 0
deriving DecidableEq, Repr

structure Outbound where
  call : Call
  frame : Bytes
deriving DecidableEq, Repr

structure Hub where
  config : Config
  calls : CallTable := {}
  sessions : SessionTable := {}
  router : Router
  outbound : List Outbound := []
  reason : Option CloseReason := none
  stats : Stats := {}

structure Asked where
  method : String
  params : Params
  scope : Option SessionId

namespace Hub

def ofConfig (config : Config) : Hub :=
  { config, router := .ofCapacity config.effectiveEventBuffer }

def isClosed (h : Hub) : Bool := h.reason.isSome

-- Fails every call, ends every stream and detaches every session. The first reason stands.
def shutdown (h : Hub) (reason : CloseReason) : Hub :=
  if h.isClosed then h
  else { h with
    reason := some reason
    calls := h.calls.failAll.2
    router := h.router.close.2
    sessions := h.sessions.detachAll.2 }

def detachHere (h : Hub) (session : SessionId) : Bool × Hub :=
  match h.sessions.markDetached session with
  | (none, _) => (false, h)
  | (some _, sessions) => (true, { h with sessions, calls := (h.calls.failSession session).2 })

def scopeFault? (h : Hub) : Option SessionId → Option Error
  | none => none
  | some session =>
    match h.sessions.scope session with
    | .ok _ => none
    | .error fault => some fault

def refusal? (h : Hub) (asked : Asked) : Option Error :=
  if h.isClosed then some .connectionClosed
  else if asked.method.isEmpty then some (.invalidArgument "method must not be empty")
  else h.scopeFault? asked.scope

-- Registers a request and queues its frame. It is registered first, so no response can come too
-- early. Its session is looked up again then, and the call given up if it has been detached meanwhile.
def post (h : Hub) (asked : Asked) : Except Error Call × Hub :=
  match h.refusal? asked with
  | some fault => (.error fault, h)
  | none =>
    let (id, calls) := h.calls.allocate
    let h := { h with calls }
    match asked.params.payload? with
    | .error fault => (.error (.codec fault), h)
    | .ok params =>
      let request : Request := ⟨id, asked.method, params, asked.scope⟩
      match h.calls.register id asked.method asked.scope with
      | .error fault => (.error fault, h)
      | .ok (call, calls) =>
        match h.scopeFault? asked.scope with
        | some fault => (.error fault, { h with calls := calls.abandon call })
        | none => (.ok call, { h with calls, outbound := h.outbound ++ [⟨call, (Message.request request).encode⟩] })

theorem scope_stands {h : Hub} {asked : Asked} (accepted : h.refusal? asked = none) :
    h.scopeFault? asked.scope = none := by
  rw [refusal?] at accepted
  split at accepted
  · cases accepted
  · split at accepted
    · cases accepted
    · exact accepted

-- Nothing comes between the two looks at the session, so that the second never finds it detached.
theorem post_eq (h : Hub) (asked : Asked) :
    h.post asked =
      match h.refusal? asked with
      | some fault => (.error fault, h)
      | none =>
        let (id, calls) := h.calls.allocate
        let h := { h with calls }
        match asked.params.payload? with
        | .error fault => (.error (.codec fault), h)
        | .ok params =>
          let request : Request := ⟨id, asked.method, params, asked.scope⟩
          match h.calls.register id asked.method asked.scope with
          | .error fault => (.error fault, h)
          | .ok (call, calls) =>
            (.ok call, { h with calls, outbound := h.outbound ++ [⟨call, (Message.request request).encode⟩] }) := by
  rw [post]
  cases accepted : h.refusal? asked with
  | some fault => rfl
  | none =>
    have again (calls : CallTable) : ({ h with calls } : Hub).scopeFault? asked.scope = none := scope_stands accepted
    simp only [again]

def describe (h : Hub) : String :=
  s!"Connection \x7b closed: {h.isClosed}, pending_calls: {h.calls.pending.length}, subscribers: {h.router.subscribers.length} \x7d"

end Hub

end DevTools
