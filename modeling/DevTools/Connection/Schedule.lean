import DevTools.Connection.Basic
import DevTools.Schedule

set_option autoImplicit false

namespace DevTools

inductive Activity where
  | reader
  | writer
  | caller (key : Nat)
  | handler (stream : Nat)
deriving DecidableEq, Repr

namespace Connection

def activities (c : Connection) : List Activity :=
  [.reader, .writer] ++ c.callers.map (fun entry => .caller entry.1) ++ c.handlers.map (fun h => .handler h.stream)

def ready (c : Connection) : Activity → Bool
  | .reader => c.readerReady
  | .writer => c.writerReady
  | .caller key => c.callerReady key
  | .handler stream => c.handlerReady stream

def move (c : Connection) (a : Activity) : Connection :=
  (match a with
    | .reader => c.moveReader
    | .writer => c.moveWriter
    | .caller key => c.moveCaller key
    | .handler stream => c.moveHandler stream).closeUnheld

def turn (c : Connection) : Activity → Option Nat
  | .reader => c.link.turn?
  | _ => none

def schedule : Schedule Connection Activity where
  activities := activities
  ready := ready
  move := move
  turn := turn

-- Everything that waits to be done, counted so that no run takes more moves: each thing that arrives
-- can set every caller and every handler moving.
def work (c : Connection) : Nat :=
  let buffered := c.hub.router.streams.foldl (fun n s => n + s.buffer.length) 0
  (c.link.backlog + c.hub.outbound.length + buffered + 8) * (c.callers.length + c.handlers.length + 4) * 8

def settle (c : Connection) : Connection :=
  schedule.settle c.work c

end Connection

end DevTools
