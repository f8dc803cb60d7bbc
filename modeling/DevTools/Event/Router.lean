import DevTools.Event.Filter

set_option autoImplicit false

namespace DevTools

-- The ids of subscribers and the counts of lost events have no bound here. In a real router they are numbers
-- of 64 bits and wrap.
structure Subscriber where
  id : Nat
  filter : Filter
deriving DecidableEq, Repr

structure Stream where
  id : Nat
  buffer : List Event
  lagged : Nat
deriving DecidableEq, Repr

def Stream.advance (s : Stream) : Stream := { s with buffer := s.buffer.tail }

structure Router where
  capacity : Nat
  nextId : Nat := 1
  closed : Bool := false
  laggedTotal : Nat := 0
  subscribers : List Subscriber := []
  streams : List Stream := []
deriving DecidableEq, Repr

namespace Router

def ofCapacity (capacity : Nat) : Router := { capacity := max capacity 1 }

def isRegistered (r : Router) (id : Nat) : Bool := r.subscribers.any (·.id == id)

def stream? (r : Router) (id : Nat) : Option Stream := r.streams.find? (·.id == id)

-- Once the router is closed a new stream has no subscriber: it has ended.
def subscribe (r : Router) (filter : Filter) : Nat × Router :=
  (r.nextId, { r with
    nextId := r.nextId + 1
    subscribers := if r.closed then r.subscribers else r.subscribers ++ [⟨r.nextId, filter⟩]
    streams := r.streams ++ [⟨r.nextId, [], 0⟩] })

def wants (r : Router) (e : Event) (s : Stream) : Bool :=
  r.subscribers.any fun sub => sub.id == s.id && sub.filter.accepts e

def hasRoom (r : Router) (s : Stream) : Bool := s.buffer.length < r.capacity

def offer (r : Router) (e : Event) (s : Stream) : Stream :=
  if r.wants e s then
    if r.hasRoom s then { s with buffer := s.buffer ++ [e] } else { s with lagged := s.lagged + 1 }
  else s

-- Delivers an event; gives the number of streams that took it. A subscriber whose stream is gone is
-- removed when it would have got an event.
def dispatch (r : Router) (e : Event) : Nat × Router :=
  let wanting := r.streams.filter (r.wants e)
  let lost := wanting.filter fun s => !r.hasRoom s
  (wanting.length - lost.length, { r with
    streams := r.streams.map (r.offer e)
    laggedTotal := r.laggedTotal + lost.length
    subscribers := r.subscribers.filter fun sub => !sub.filter.accepts e || (r.stream? sub.id).isSome })

def close (r : Router) : Nat × Router :=
  if r.closed then (0, r) else (r.subscribers.length, { r with closed := true, subscribers := [] })

def drop (r : Router) (id : Nat) : Router :=
  { r with
    subscribers := r.subscribers.filter fun sub => sub.id != id
    streams := r.streams.filter fun s => s.id != id }

inductive Next where
  | event (e : Event)
  | ended
  | waiting
deriving DecidableEq, Repr

-- What the stream holds first. It has ended when its buffer is empty and nobody can fill it.
def peek (r : Router) (id : Nat) : Next :=
  match r.stream? id with
  | none => .ended
  | some s =>
    match s.buffer with
    | e :: _ => .event e
    | [] => if r.isRegistered id then .waiting else .ended

def take (r : Router) (id : Nat) : Next × Router :=
  (r.peek id, { r with streams := r.streams.map fun s => if s.id == id then s.advance else s })

def drain (r : Router) (id : Nat) : List Event × Router :=
  (((r.stream? id).map (·.buffer)).getD [],
    { r with streams := r.streams.map fun s => if s.id == id then { s with buffer := [] } else s })

def describeStream (id lagged : Nat) : String :=
  s!"EventStream \x7b id: {id}, lagged: {lagged} \x7d"

end Router

end DevTools
