import DevTools.Call.Table
import DevTools.Clock

set_option autoImplicit false

namespace DevTools

structure CallWait where
  call : Call
  cancel : Option Token
  limit : Option Limit
deriving DecidableEq, Repr

namespace CallWait

def ready (w : CallWait) (clock : Clock) (t : CallTable) : Bool :=
  (t.outcome? w.call).isSome || clock.hasFired w.cancel || w.limit.any clock.hasPassed

-- The end of the wait. A caller that gives up abandons the call.
def finish? (w : CallWait) (clock : Clock) (t : CallTable) : Option (Outcome × CallTable) :=
  match t.collect w.call with
  | some settled => some settled
  | none =>
    if clock.hasFired w.cancel then some (.error .cancelled, t.abandon w.call)
    else match w.limit with
      | some limit => if clock.hasPassed limit then some (.error (.timeout limit.after), t.abandon w.call) else none
      | none => none

end CallWait

end DevTools
