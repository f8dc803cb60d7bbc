import DevTools.Transport.Result

set_option autoImplicit false

namespace DevTools

inductive Handed where
  | frame (bytes : Bytes)
  | fault (fault : Error)
  | hangup
deriving Repr

structure Memory where
  inbox : List Handed := []
  outbox : List Bytes := []
  stalled : Bool := false
  -- The next write fails with this reason, and so does one that waits.
  failWrite : Option String := none
  failClose : Bool := false
  closed : Bool := false
deriving Repr

namespace Memory

-- So many frames a reader takes in one turn; then it lets others go first.
def turn : Nat := 128

def receive (m : Memory) : Received × Memory :=
  match m.inbox with
  | [] => (.waiting, m)
  | handed :: inbox =>
    (match handed with
      | .frame bytes => .frame bytes
      | .fault fault => .failed fault
      | .hangup => .ended, { m with inbox })

def send (m : Memory) (s : Sending) : Sent × Memory :=
  match m.failWrite with
  | some reason => (.failed (.transport reason), { m with failWrite := none })
  | none => if m.stalled then (.waiting s, m) else (.done, { m with outbox := m.outbox ++ [s.rest] })

def close (m : Memory) : Except Error Unit × Memory :=
  (if m.failClose then .error (.transport "close failed") else .ok (), { m with closed := true })

def collect (m : Memory) : List Bytes × Memory := (m.outbox, { m with outbox := [] })

end Memory

end DevTools
