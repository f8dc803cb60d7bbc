import DevTools.Desk
import DevTools.Proofs.Event.Fanout

set_option autoImplicit false

namespace DevTools

abbrev RouterDesk := Desk Router EventWait (Except Error Event)

inductive RouterAct where
  | subscribe (filter : Filter)
  | dispatch (e : Event)
  -- A look at the stream that does not wait.
  | recv (stream : Nat)
  | drain (stream : Nat)
  | wait (wait : EventWait)
  | move (key : Nat)
  -- The wait is given up, and its stream stays.
  | leave (key : Nat)
  -- The wait is given up together with its stream.
  | abort (key : Nat)
  | advance (milliseconds : Nat)
  | drop (stream : Nat)
  | close

def RouterAct.subscribes : RouterAct → Bool
  | subscribe _ => true
  | _ => false

namespace RouterDesk

def opened (capacity : Nat) : RouterDesk := { table := .ofCapacity capacity }

def act (d : RouterDesk) : RouterAct → RouterDesk
  | .subscribe filter => { d with table := (d.table.subscribe filter).2 }
  | .dispatch e => { d with table := (d.table.dispatch e).2 }
  | .recv stream => { d with table := (d.table.take stream).2 }
  | .drain stream => { d with table := (d.table.drain stream).2 }
  | .wait w => (d.start (.inl w)).2
  | .move key => d.move EventWait.kind key
  | .leave key => d.withoutWait key
  | .abort key => (d.abort EventWait.kind key).2
  | .advance milliseconds => d.advance milliseconds
  | .drop stream => { d with table := d.table.drop stream }
  | .close => { d with table := d.table.close.2 }

def run (d : RouterDesk) (acts : List RouterAct) : RouterDesk := acts.foldl act d

theorem settle_run (d : RouterDesk) : ∃ acts, d.settle EventWait.kind = d.run acts := by
  obtain ⟨moves, made⟩ := (Desk.schedule EventWait.kind).run_moves _ ((Desk.schedule EventWait.kind).notice d {}) d
  refine ⟨moves.map .move, ?_⟩
  rw [run, List.foldl_map]
  exact made

def yields (d : RouterDesk) (stream : Nat) : RouterAct → List Event
  | .recv own => if own == stream then d.table.handed stream else []
  | .drain own => if own == stream then (d.table.drain stream).1 else []
  | .move key =>
      match d.wait? key with
      | none => []
      | some w =>
          match w.finish? d.clock d.table with
          | some (.ok e, _) => if w.stream == stream then [e] else []
          | _ => []
  | _ => []

def yielded (d : RouterDesk) (stream : Nat) (acts : List RouterAct) : List Event :=
  (trace act d acts).flatMap fun (d, a) => d.yields stream a

def drops (d : RouterDesk) (stream : Nat) : RouterAct → Bool
  | .drop own => own == stream
  | .abort key => (d.wait? key).any (·.stream == stream)
  | _ => false

-- What an act dispatches for a stream with this filter, and how many events its buffer holds then.
def offers (d : RouterDesk) (stream : Nat) (filter : Filter) : RouterAct → List Offer
  | .dispatch e => if filter.accepts e then [⟨e, (d.table.buffered stream).length⟩] else []
  | _ => []

-- The events that are dispatched for the stream until it is dropped or the router closed.
def offered (d : RouterDesk) (stream : Nat) (filter : Filter) : List RouterAct → List Offer
  | [] => []
  | a :: acts =>
      if d.table.closed || d.drops stream a then []
      else d.offers stream filter a ++ (d.act a).offered stream filter acts

-- What an act does to the router. A wait whose stream has nothing looks at it in vain.
def deed? (d : RouterDesk) : RouterAct → Option RouterDeed
  | .subscribe filter => some (.subscribe filter)
  | .dispatch e => some (.dispatch e)
  | .recv stream => some (.take stream)
  | .drain stream => some (.drain stream)
  | .move key => (d.wait? key).map fun w => .take w.stream
  | .abort key => (d.wait? key).map fun w => .drop w.stream
  | .drop stream => some (.drop stream)
  | .close => some .close
  | .wait _ | .leave _ | .advance _ => none

def noticed (d : RouterDesk) (stream : Nat) (acts : List RouterAct) : List Touch :=
  (trace act d acts).filterMap fun (d, a) => (d.deed? a).bind (·.touch? stream)

def dropped (d : RouterDesk) (acts : List RouterAct) : List Stream :=
  (trace act d acts).flatMap fun (d, a) => d.table.streams.filter fun s => d.drops s.id a

-- What somebody gets from a run who subscribes before it: the events, then what is left in the buffer
-- and the number of events lost, unless the stream is dropped.
def experience (d : RouterDesk) (filter : Filter) (acts : List RouterAct) : List Event × Option (List Event × Nat) :=
  let stream := (d.table.subscribe filter).1
  let d := d.act (.subscribe filter)
  (d.yielded stream acts, ((d.run acts).table.stream? stream).map fun s => (s.buffer, s.lagged))

section
variable {d : RouterDesk} {stream : Nat}

theorem take_idle (r : Router) (tidy : r.Tidy) (own : Nat) (nothing : ∀ e, r.peek own ≠ .event e) :
    (r.take own).2 = r := by
  have same : r.streams.map (fun s => if s.id == own then s.advance else s) = r.streams := by
    apply (List.map_congr_left _).trans (List.map_id _)
    intro s member
    split
    · next mine =>
        have found := Router.stream_of_mem tidy s member
        rw [beq_iff_eq.mp mine] at found
        cases holds : s.buffer with
        | nil =>
            simp only [Stream.advance, holds, List.tail_nil, id]
            rw [← holds]
        | cons e rest => exact absurd (by simp [Router.peek, found, holds]) (nothing e)
    · rfl
  simp only [Router.take, same]

theorem act_table (tidy : d.table.Tidy) (a : RouterAct) :
    (d.act a).table = (d.deed? a).elim d.table d.table.perform := by
  cases a with
  | move key =>
      simp only [act, Desk.move, deed?]
      cases found : d.wait? key with
      | none => rfl
      | some w =>
          have taking : d.table.take w.stream = (d.table.peek w.stream, (d.table.take w.stream).2) := rfl
          simp only [EventWait.kind, stillOr, EventWait.finish?, Option.map_some, Option.elim_some, Router.perform]
          rw [taking]
          cases next : d.table.peek w.stream with
          | event e => rfl
          | ended => exact (take_idle d.table tidy w.stream (by simp [next])).symm
          | waiting =>
              rw [take_idle d.table tidy w.stream (by simp [next])]
              cases d.clock.hasPassed w.limit <;> rfl
  | abort key =>
      simp only [act, Desk.abort, deed?]
      cases d.wait? key <;> rfl
  | _ => rfl

theorem act_tidy (tidy : d.table.Tidy) (a : RouterAct) : (d.act a).table.Tidy := by
  rw [act_table tidy]
  cases d.deed? a with
  | none => exact tidy
  | some deed => exact Router.perform_tidy tidy deed

theorem run_tidy (tidy : d.table.Tidy) (acts : List RouterAct) : (d.run acts).table.Tidy := by
  induction acts generalizing d with
  | nil => exact tidy
  | cons a acts ih => exact ih (act_tidy tidy a)

theorem yields_eq (a : RouterAct) : d.yields stream a = (d.deed? a).elim [] (d.table.gives stream) := by
  cases a with
  | move key =>
      simp only [yields, deed?]
      cases found : d.wait? key with
      | none => rfl
      | some w =>
          have taking : d.table.take w.stream = (d.table.peek w.stream, (d.table.take w.stream).2) := rfl
          simp only [EventWait.finish?, Option.map_some, Option.elim_some, Router.gives]
          rw [taking]
          by_cases mine : w.stream = stream
          · subst mine
            cases next : d.table.peek w.stream with
            | waiting => cases d.clock.hasPassed w.limit <;> simp [Router.handed, next]
            | _ => simp [Router.handed, next]
          · cases d.table.peek w.stream with
            | waiting => cases d.clock.hasPassed w.limit <;> simp [mine]
            | _ => simp [mine]
  | abort key =>
      simp only [yields, deed?]
      cases d.wait? key <;> rfl
  | _ => rfl

theorem drops_iff (a : RouterAct) :
    d.drops stream a = true ↔ (d.deed? a).bind (·.touch? stream) = some .drop := by
  have touches : ∀ deed : RouterDeed, deed.touch? stream = some .drop ↔ deed = .drop stream := by
    intro deed
    cases deed with
    | subscribe | dispatch | close => simp [RouterDeed.touch?]
    | take own | drain own | drop own => by_cases mine : own = stream <;> simp [RouterDeed.touch?, mine]
  simp only [Option.bind_eq_some_iff, touches, exists_eq_right]
  cases a with
  | move key | abort key =>
      simp only [drops, deed?]
      cases d.wait? key <;> simp
  | _ => simp [drops, deed?]

theorem parts_eq (a : RouterAct) :
    (d.deed? a).elim [] d.table.parts = d.table.streams.filter fun s => d.drops s.id a := by
  have none_ : ∀ a, (∀ stream, d.drops stream a = false) → d.table.streams.filter (fun s => d.drops s.id a) = [] := by
    intro a keeps
    simp [keeps]
  have own : ∀ stream a, (∀ other, d.drops other a = (stream == other)) →
      d.table.parts (.drop stream) = d.table.streams.filter fun s => d.drops s.id a := by
    intro stream a goes
    simp only [Router.parts, goes]
    exact List.filter_congr fun s _ => Bool.beq_comm
  cases a with
  | drop stream => exact own stream _ fun _ => rfl
  | abort key =>
      simp only [deed?]
      cases found : d.wait? key with
      | none => exact (none_ _ fun stream => by simp [drops, found]).symm
      | some w => exact own w.stream _ fun stream => by simp [drops, found]
  | move key =>
      simp only [deed?]
      cases d.wait? key <;> exact (none_ _ fun _ => rfl).symm
  | _ => exact (none_ _ fun _ => rfl).symm

end

end RouterDesk

end DevTools
