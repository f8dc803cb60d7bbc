import DevTools.Clock
import DevTools.Error
import DevTools.Event.Router

set_option autoImplicit false

namespace DevTools

structure EventWait where
  stream : Nat
  limit : Limit
deriving DecidableEq, Repr

namespace EventWait

def ready (w : EventWait) (clock : Clock) (r : Router) : Bool :=
  r.peek w.stream != .waiting || clock.hasPassed w.limit

def finish? (w : EventWait) (clock : Clock) (r : Router) : Option (Except Error Event × Router) :=
  match r.take w.stream with
  | (.event e, r) => some (.ok e, r)
  | (.ended, _) => some (.error .connectionClosed, r)
  | (.waiting, _) => if clock.hasPassed w.limit then some (.error (.timeout w.limit.after), r) else none

end EventWait

end DevTools
