import DevTools.Call.Wait
import DevTools.Event.Wait
import DevTools.Schedule
import DevTools.Session.Wait
/- A table on its own, with the waits on it in progress. -/

set_option autoImplicit false

namespace DevTools

-- One kind of wait on a table: when it can move, what a move does, and what giving it up does.
structure WaitKind (σ ω ρ : Type) where
  ready : ω → Clock → σ → Bool
  move : ω → Clock → σ → (ω ⊕ ρ) × σ
  drop : ω → σ → σ

structure Desk (σ ω ρ : Type) where
  table : σ
  clock : Clock := {}
  waits : List (Nat × ω) := []
  nextWait : Nat := 0
  finished : List (Nat × ρ) := []

namespace Desk

variable {σ ω ρ : Type} (kind : WaitKind σ ω ρ)

def wait? (d : Desk σ ω ρ) (key : Nat) : Option ω :=
  (d.waits.find? fun w => w.1 == key).map (·.2)

def withoutWait (d : Desk σ ω ρ) (key : Nat) : Desk σ ω ρ :=
  { d with waits := d.waits.filter fun w => w.1 != key }

def move (d : Desk σ ω ρ) (key : Nat) : Desk σ ω ρ :=
  match d.wait? key with
  | none => d
  | some w =>
    match kind.move w d.clock d.table with
    | (.inl w, table) =>
      { d with table, waits := d.waits.map fun old => if old.1 == key then (key, w) else old }
    | (.inr result, table) => { d.withoutWait key with table, finished := d.finished ++ [(key, result)] }

def schedule : Schedule (Desk σ ω ρ) Nat where
  activities d := d.waits.map (·.1)
  ready d key := (d.wait? key).any fun w => kind.ready w d.clock d.table
  move := move kind

def settle (d : Desk σ ω ρ) : Desk σ ω ρ :=
  (schedule kind).settle (8 * d.waits.length * (d.waits.length + 1)) d

def start (d : Desk σ ω ρ) (w : ω ⊕ ρ) : Nat × Desk σ ω ρ :=
  let d' := { d with nextWait := d.nextWait + 1 }
  (d.nextWait, match w with
    | .inl w => { d' with waits := d.waits ++ [(d.nextWait, w)] }
    | .inr result => { d' with finished := d.finished ++ [(d.nextWait, result)] })

def abort (d : Desk σ ω ρ) (key : Nat) : Bool × Desk σ ω ρ :=
  match d.wait? key with
  | none => (false, d)
  | some w => (true, { d.withoutWait key with table := kind.drop w d.table })

def advance (d : Desk σ ω ρ) (milliseconds : Nat) : Desk σ ω ρ :=
  { d with clock := d.clock.advance milliseconds }

def fire (d : Desk σ ω ρ) (token : Token) : Desk σ ω ρ :=
  { d with clock := d.clock.fire token }

def collect (d : Desk σ ω ρ) : List (Nat × ρ) × Desk σ ω ρ :=
  (d.finished, { d with finished := [] })

end Desk

def stillOr {σ ω ρ : Type} (w : ω) (table : σ) (ended : Option (ρ × σ)) : (ω ⊕ ρ) × σ :=
  match ended with
  | some (result, table) => (.inr result, table)
  | none => (.inl w, table)

def CallWait.kind : WaitKind CallTable CallWait Outcome where
  ready w clock t := w.ready clock t
  move w clock t := stillOr w t (w.finish? clock t)
  drop w t := t.abandon w.call

-- Whoever waits owns the stream: giving up drops it.
def EventWait.kind : WaitKind Router EventWait (Except Error Event) where
  ready w clock r := w.ready clock r
  move w clock r := stillOr w r (w.finish? clock r)
  drop w r := r.drop w.stream

def Look.asStep : Look → TargetWait ⊕ Except Error Session
  | asleep w => .inl w
  | settled result => .inr result

def TargetWait.kind : WaitKind SessionTable TargetWait (Except Error Session) where
  ready w clock t := w.ready clock t
  move w clock t := let (look, t) := w.move clock t; (look.asStep, t)
  drop w t := t.getUp w.sleeper

end DevTools
