import DevTools.Connection.Hub
/- A response goes to its call, an event to the sessions that it tells of and then to the subscribers. Every other
   frame is counted and has no effect. -/

set_option autoImplicit false

namespace DevTools.Hub

def count (h : Hub) (f : Stats → Stats) : Hub := { h with stats := f h.stats }

def takeResponse (h : Hub) (r : Response) : Hub :=
  match h.calls.resolve r.id r with
  | (true, calls) => { h with calls }
  | (false, _) => h.count fun s => { s with orphanedResponses := s.orphanedResponses + 1 }

def applyToSessions (h : Hub) (e : Event) : Hub :=
  if e.method = AttachedToTarget.method then
    match e.paramsAs AttachedToTarget.record.read with
    | .ok attached => { h with sessions := (h.sessions.register attached.session attached.info.target).2 }
    | .error _ => h
  else if e.method = DetachedFromTarget.method then
    match e.paramsAs DetachedFromTarget.record.read with
    | .ok detached => (h.detachHere detached.session).2
    | .error _ => h
  else h

def dispatch (h : Hub) (e : Event) : Hub :=
  let (delivered, router) := h.router.dispatch e
  let h := { h with router }
  if delivered = 0 then h.count fun s => { s with unroutedEvents := s.unroutedEvents + 1 } else h

def takeEvent (h : Hub) (e : Event) : Hub :=
  if e.session.any h.sessions.isDetached then
    h.count fun s => { s with detachedSessionFrames := s.detachedSessionFrames + 1 }
  else (h.applyToSessions e).dispatch e

def takeFrame (h : Hub) (frame : Bytes) : Hub :=
  match Message.decode frame with
  | .ok (.response r) => h.takeResponse r
  | .ok (.event e) => h.takeEvent e
  | .ok (.request _) => h.count fun s => { s with unexpectedRequests := s.unexpectedRequests + 1 }
  | .error _ => h.count fun s => { s with malformedFrames := s.malformedFrames + 1 }

end DevTools.Hub
