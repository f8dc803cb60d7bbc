import DevTools.Error
/- Calls in flight. Each is registered under its id and settled once: by its response, by the detach of its session,
   by shutdown, or because its caller gave up. -/

set_option autoImplicit false

namespace DevTools

abbrev Outcome := Except Error Response

-- A handle to a call. The ticket tells it from another call of the same id.
structure Call where
  ticket : Nat
  id : UInt64
  method : String
deriving DecidableEq, Repr

structure Entry where
  id : UInt64
  ticket : Nat
  session : Option SessionId
deriving DecidableEq, Repr

-- A handle that its caller still holds, and the outcome once there is one.
structure Slot where
  call : Call
  outcome : Option Outcome

def Slot.settle (s : Slot) (outcome : Outcome) : Slot :=
  { s with outcome := s.outcome.or (some outcome) }

structure CallTable where
  nextId : UInt64 := 1
  nextTicket : Nat := 0
  closed : Bool := false
  pending : List Entry := []
  slots : List Slot := []

namespace CallTable

def isPending (t : CallTable) (id : UInt64) : Bool := t.pending.any (·.id == id)

def pendingIds (t : CallTable) : List UInt64 := t.pending.map (·.id)

def allocate (t : CallTable) : UInt64 × CallTable :=
  (t.nextId, { t with nextId := t.nextId + 1 })

def remove (t : CallTable) (gone : Entry → Bool) (outcome : Outcome) : CallTable :=
  let tickets := (t.pending.filter gone).map (·.ticket)
  { t with
    pending := t.pending.filter fun e => !gone e
    slots := t.slots.map fun s => if tickets.contains s.call.ticket then s.settle outcome else s }

def cancel (t : CallTable) (id : UInt64) : Bool × CallTable :=
  (t.isPending id, t.remove (·.id == id) (.error .connectionClosed))

-- Registers a call, unless the table is closed. One already in flight under that id gives way.
def register (t : CallTable) (id : UInt64) (method : String) (session : Option SessionId) :
    Except Error (Call × CallTable) :=
  if t.closed then .error .connectionClosed
  else
    let call : Call := ⟨t.nextTicket, id, method⟩
    let t := (t.cancel id).2
    .ok (call, { t with
      nextTicket := t.nextTicket + 1
      pending := t.pending ++ [⟨id, call.ticket, session⟩]
      slots := t.slots ++ [⟨call, none⟩] })

def resolve (t : CallTable) (id : UInt64) (response : Response) : Bool × CallTable :=
  (t.isPending id, t.remove (·.id == id) (.ok response))

def failAll (t : CallTable) : Nat × CallTable :=
  (t.pending.length, { t.remove (fun _ => true) (.error .connectionClosed) with closed := true })

def failSession (t : CallTable) (session : SessionId) : Nat × CallTable :=
  let ofSession (e : Entry) : Bool := e.session == some session
  ((t.pending.filter ofSession).length, t.remove ofSession (.error (.sessionDetached session)))

def slot? (t : CallTable) (call : Call) : Option Slot :=
  t.slots.find? fun s => s.call == call

def outcome? (t : CallTable) (call : Call) : Option Outcome :=
  (t.slot? call).bind (·.outcome)

def release (t : CallTable) (call : Call) : CallTable :=
  { t with slots := t.slots.filter fun s => s.call != call }

-- A handle whose outcome nobody took: its id is taken out of the table, whoever registered it last.
def abandon (t : CallTable) (call : Call) : CallTable :=
  ((t.release call).cancel call.id).2

def collect (t : CallTable) (call : Call) : Option (Outcome × CallTable) :=
  (t.outcome? call).map fun outcome => (outcome, t.release call)

end CallTable

end DevTools
