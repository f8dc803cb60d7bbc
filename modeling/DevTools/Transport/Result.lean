import DevTools.Error

set_option autoImplicit false

namespace DevTools

-- A read that panics takes down whoever reads.
inductive Received where
  | frame (bytes : Bytes)
  | ended
  | failed (fault : Error)
  | waiting
  | panicked
deriving Repr

def Received.isWaiting : Received → Bool
  | waiting => true
  | _ => false

-- What is being written: the frame, then what marks its end, then whatever still lies in buffers.
inductive Stage where
  | frame
  | delimiter
  | flush
deriving DecidableEq, Repr

structure Sending where
  stage : Stage
  rest : Bytes
deriving DecidableEq, Repr

def Sending.ofFrame (frame : Bytes) : Sending := ⟨.frame, frame⟩

inductive Sent where
  | done
  | failed (fault : Error)
  | waiting (left : Sending)
deriving Repr

end DevTools
