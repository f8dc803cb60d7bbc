import DevTools.Clock
import DevTools.Session.Table

set_option autoImplicit false

namespace DevTools

structure TargetWait where
  target : TargetId
  limit : Limit
  sleeper : Nat
deriving DecidableEq, Repr

inductive Look where
  | asleep (wait : TargetWait)
  | settled (result : Except Error Session)

namespace TargetWait

-- Lies down first and looks around then, so that no bell is missed in between.
def look (clock : Clock) (target : TargetId) (limit : Limit) (t : SessionTable) : Look × SessionTable :=
  let (key, t) := t.lieDown target
  match t.ofTarget? target with
  | some session => (.settled (.ok session), t.getUp key)
  | none =>
    if clock.hasPassed limit then (.settled (.error (.timeout limit.after)), t.getUp key)
    else (.asleep ⟨target, limit, key⟩, t)

def isWoken (w : TargetWait) (t : SessionTable) : Bool := (t.sleeper? w.sleeper).any (·.woken)

def ready (w : TargetWait) (clock : Clock) (t : SessionTable) : Bool :=
  w.isWoken t || clock.hasPassed w.limit

-- The bell counts before the time. Whoever was woken gets up and looks again.
def move (w : TargetWait) (clock : Clock) (t : SessionTable) : Look × SessionTable :=
  if w.isWoken t then look clock w.target w.limit (t.getUp w.sleeper)
  else if clock.hasPassed w.limit then (.settled (.error (.timeout w.limit.after)), t.getUp w.sleeper)
  else (.asleep w, t)

end TargetWait

end DevTools
