import DevTools.Proofs.Connection.Intake
/- Two connections side by side, alike but for two counts and for what their links have still to give. Whatever is done
   to both, they stay alike. -/

set_option autoImplicit false

namespace DevTools

namespace Message

def isMalformed (bytes : Bytes) : Bool :=
  match decode bytes with
  | .error _ => true
  | .ok _ => false

def isRequest (bytes : Bytes) : Bool :=
  match decode bytes with
  | .ok (.request _) => true
  | _ => false

-- A frame that nobody heeds.
def isStray (bytes : Bytes) : Bool := isMalformed bytes || isRequest bytes

end Message

def Stats.plus (s : Stats) (malformed unexpected : Nat) : Stats :=
  { s with malformedFrames := s.malformedFrames + malformed, unexpectedRequests := s.unexpectedRequests + unexpected }

namespace Hub

def plus (h : Hub) (m u : Nat) : Hub := { h with stats := h.stats.plus m u }

section
variable {h : Hub} {m u : Nat}

-- Not by bare `rfl`: a condition is to be rewritten together with its decision, or no `split` goes through.
@[simp] theorem plus_calls : (h.plus m u).calls = h.calls := (rfl)

@[simp] theorem plus_sessions : (h.plus m u).sessions = h.sessions := (rfl)

@[simp] theorem plus_router : (h.plus m u).router = h.router := (rfl)

@[simp] theorem plus_outbound : (h.plus m u).outbound = h.outbound := (rfl)

@[simp] theorem plus_is_closed : (h.plus m u).isClosed = h.isClosed := (rfl)

@[simp] theorem plus_refusal (asked : Asked) : (h.plus m u).refusal? asked = h.refusal? asked := (rfl)

theorem post_plus (asked : Asked) : (h.plus m u).post asked = ((h.post asked).1, (h.post asked).2.plus m u) := by
  simp only [post_eq, plus_refusal]
  cases h.refusal? asked with
  | some fault => rfl
  | none =>
      dsimp only
      cases asked.params.payload? with
      | error fault => rfl
      | ok params =>
          simp only [plus_calls]
          cases (h.calls.allocate.2.register h.calls.allocate.1 asked.method asked.scope) <;> rfl

theorem detach_plus (session : SessionId) :
    (h.plus m u).detachHere session = ((h.detachHere session).1, (h.detachHere session).2.plus m u) := by
  simp only [detachHere, plus_sessions]
  rcases h.sessions.markDetached session with ⟨marked, table⟩
  cases marked <;> rfl

theorem shutdown_plus (reason : CloseReason) : (h.plus m u).shutdown reason = (h.shutdown reason).plus m u := by
  simp only [shutdown, plus_is_closed]
  split <;> rfl

theorem conclude_plus (use : Use) (outcome : Outcome) :
    use.conclude outcome (h.plus m u) = ((use.conclude outcome h).1, (use.conclude outcome h).2.plus m u) := by
  cases outcome with
  | error fault => rfl
  | ok response =>
      simp only [Use.conclude]
      cases response.outcome with
      | error refused => rfl
      | ok payload =>
          cases use with
          | attach target =>
              simp only [Use.apply]
              split <;> rfl
          | _ => rfl

theorem drop_plus (caller : Caller) : caller.drop (h.plus m u) = (caller.drop h).plus m u := by
  cases caller <;> rfl

theorem move_plus (caller : Caller) (clock : Clock) (ended : Bool) :
    caller.move clock ended (h.plus m u) = ((caller.move clock ended h).1, (caller.move clock ended h).2.plus m u) := by
  cases caller with
  | sending call written =>
      simp only [Caller.move]
      split <;> rfl
  | asking use cancel call written =>
      simp only [Caller.move]
      split
      · rfl
      · split <;> rfl
  | awaiting use w =>
      simp only [Caller.move, plus_calls]
      cases w.finish? clock h.calls with
      | none => rfl
      | some settled =>
          have concluded := conclude_plus (h := { h with calls := settled.2 }) (m := m) (u := u) use settled.1
          dsimp only
          exact congrArg (fun x : Except Error Answer × Hub => (Sum.inr x.1, x.2)) concluded
  | collecting w =>
      simp only [Caller.move, plus_calls]
      split <;> rfl
  | listening w own =>
      simp only [Caller.move, plus_router]
      split <;> rfl
  | seeking w =>
      simp only [Caller.move, plus_is_closed]
      split <;> rfl
  | closing joins =>
      simp only [Caller.move]
      split <;> rfl
  | untilClosed =>
      simp only [Caller.move, plus_is_closed]
      split <;> rfl

theorem count_plus (f : Stats → Stats) (same : (f h.stats).plus m u = f (h.stats.plus m u)) :
    (h.plus m u).count f = (h.count f).plus m u := by
  simp only [count, plus, same]

theorem apply_plus (e : Event) : (h.plus m u).applyToSessions e = (h.applyToSessions e).plus m u := by
  simp only [applyToSessions]
  split
  · split <;> rfl
  · split
    · split
      · rw [detach_plus]
      · rfl
    · rfl

theorem dispatch_plus (e : Event) : (h.plus m u).dispatch e = (h.dispatch e).plus m u := by
  simp only [dispatch, plus_router]
  split <;> rfl

theorem frame_plus (bytes : Bytes) : (h.plus m u).takeFrame bytes = (h.takeFrame bytes).plus m u := by
  simp only [takeFrame]
  cases Message.decode bytes with
  | error fault => exact count_plus _ (by simp [Stats.plus, Nat.add_right_comm])
  | ok message =>
      cases message with
      | request r => exact count_plus _ (by simp [Stats.plus, Nat.add_right_comm])
      | response r =>
          simp only [takeResponse, plus_calls]
          split <;> rfl
      | event e =>
          simp only [takeEvent, plus_sessions, apply_plus, dispatch_plus]
          split <;> rfl

theorem send_plus (asked : Asked) :
    Caller.beginSend asked (h.plus m u) = ((Caller.beginSend asked h).1, (Caller.beginSend asked h).2.plus m u) := by
  simp only [Caller.beginSend, post_plus]
  rcases h.post asked with ⟨result, after⟩
  cases result <;> rfl

theorem ask_plus (use : Use) (cancel : Option Token) (asked : Asked) (clock : Clock) :
    Caller.beginAsk use cancel asked clock (h.plus m u) =
      ((Caller.beginAsk use cancel asked clock h).1, (Caller.beginAsk use cancel asked clock h).2.plus m u) := by
  simp only [Caller.beginAsk, post_plus]
  split
  · rfl
  · rcases h.post asked with ⟨result, after⟩
    cases result <;> rfl

theorem begin_detach_plus (session : SessionId) (cancel : Option Token) (clock : Clock) :
    Caller.beginDetach session cancel clock (h.plus m u) =
      ((Caller.beginDetach session cancel clock h).1, (Caller.beginDetach session cancel clock h).2.plus m u) := by
  simp only [Caller.beginDetach, plus_sessions, detach_plus]
  cases h.sessions.get? session with
  | none => rfl
  | some s =>
      rcases h.detachHere session with ⟨attached, after⟩
      cases attached with
      | false => rfl
      | true => exact ask_plus _ _ _ _

theorem seek_plus (target : TargetId) (milliseconds : Nat) (clock : Clock) :
    Caller.beginSeek target milliseconds clock (h.plus m u) =
      ((Caller.beginSeek target milliseconds clock h).1,
        (Caller.beginSeek target milliseconds clock h).2.plus m u) := by
  simp only [Caller.beginSeek, plus_is_closed]
  split <;> rfl

end

end Hub

namespace Connection

def plus (c : Connection) (m u : Nat) (link : Link) : Connection := { c with hub := c.hub.plus m u, link }

section
variable {c : Connection} {m u : Nat} {l : Link}

@[simp] theorem plus_hub : (c.plus m u l).hub = c.hub.plus m u := (rfl)

@[simp] theorem plus_link : (c.plus m u l).link = l := (rfl)

@[simp] theorem plus_clock : (c.plus m u l).clock = c.clock := (rfl)

@[simp] theorem plus_writer : (c.plus m u l).writer = c.writer := (rfl)

@[simp] theorem plus_held : (c.plus m u l).held = c.held := (rfl)

@[simp] theorem plus_callers : (c.plus m u l).callers = c.callers := (rfl)

@[simp] theorem plus_tasks_ended : (c.plus m u l).tasksEnded = c.tasksEnded := (rfl)

@[simp] theorem plus_caller (key : Nat) : (c.plus m u l).caller? key = c.caller? key := (rfl)

@[simp] theorem plus_handler (stream : Nat) : (c.plus m u l).handler? stream = c.handler? stream := (rfl)

@[simp] theorem plus_free_call (call : Call) : (c.plus m u l).isFreeCall call = c.isFreeCall call := (rfl)

@[simp] theorem plus_free_stream (stream : Nat) : (c.plus m u l).isFreeStream stream = c.isFreeStream stream := (rfl)

theorem shutdown_plus (reason : CloseReason) : (c.plus m u l).shutdown reason = (c.shutdown reason).plus m u l := by
  simp only [shutdown, plus, Hub.shutdown_plus]

theorem close_unheld_plus : (c.plus m u l).closeUnheld = c.closeUnheld.plus m u l := by
  simp only [closeUnheld, plus_held, plus_callers]
  split
  · rfl
  · exact shutdown_plus .closedHere

theorem enter_plus (begun : Progress × Hub) :
    ((c.plus m u l).enter (begun.1, begun.2.plus m u)).2 = (c.enter begun).2.plus m u l := by
  rcases begun with ⟨progress, hub⟩
  cases progress with
  | inl caller => rfl
  | inr result => exact close_unheld_plus (c := c.concluded hub result)

theorem caller_plus (key : Nat) : (c.plus m u l).moveCaller key = (c.moveCaller key).plus m u l := by
  simp only [moveCaller, plus_caller, plus_hub, plus_clock, plus_tasks_ended]
  cases c.caller? key with
  | none => rfl
  | some caller =>
      dsimp only
      rw [Hub.move_plus]
      rcases caller.move c.clock c.tasksEnded c.hub with ⟨progress, after⟩
      cases progress <;> rfl

theorem handler_plus (stream : Nat) : (c.plus m u l).moveHandler stream = (c.moveHandler stream).plus m u l := by
  simp only [moveHandler, plus_handler, plus_hub, Hub.plus_router, plus_clock]
  cases c.handler? stream with
  | none => rfl
  | some handler =>
      dsimp only
      cases handler.busy with
      | some busy =>
          dsimp only
          split <;> rfl
      | none =>
          dsimp only
          split
          · rfl
          · split <;> rfl

theorem start_plus (operation : Operation) : (c.plus m u l).start operation = (c.start operation).plus m u l := by
  cases operation with
  | send asked =>
      simp only [start, send, plus_hub, Hub.send_plus]
      exact enter_plus _
  | ask use cancel asked =>
      simp only [start, ask, plus_hub, plus_clock, Hub.ask_plus]
      exact enter_plus _
  | execute cancel command scope =>
      simp only [start, execute, plus_hub, plus_clock, Caller.beginCommand, Hub.ask_plus]
      exact enter_plus _
  | attach target cancel =>
      simp only [start, attach, plus_hub, plus_clock, Caller.beginAttach, Caller.beginCommand, Hub.ask_plus]
      exact enter_plus _
  | detach session cancel =>
      simp only [start, detach, plus_hub, plus_clock, Hub.begin_detach_plus]
      exact enter_plus _
  | waitForTarget target milliseconds =>
      simp only [start, waitForTarget, plus_hub, plus_clock, Hub.seek_plus]
      exact enter_plus _
  | waitForEvent filter milliseconds => rfl
  | waitForCall w =>
      simp only [start, plus_free_call]
      split <;> rfl
  | waitForNext stream milliseconds =>
      simp only [start, plus_free_stream]
      split <;> rfl
  | close =>
      simp only [start, close, shutdown_plus]
      rfl
  | waitUntilClosed => rfl

def Act.isSilent : Act → Bool
  | .move .reader | .move .writer | .far _ => false
  | _ => true

theorem silent_plus (a : Act) (silent : a.isSilent = true) : (c.plus m u l).act a = (c.act a).plus m u l := by
  cases a with
  | move activity =>
      cases activity with
      | caller key => simp only [act, move, caller_plus, close_unheld_plus]
      | handler stream => simp only [act, move, handler_plus, close_unheld_plus]
      | reader | writer => cases silent
  | begin operation => exact start_plus operation
  | abort key =>
      simp only [act, abort, plus_caller]
      cases c.caller? key with
      | none => rfl
      | some caller =>
          -- The caller's drop counts nothing, so it goes through before anyone looks who still holds the connection.
          have dropped := Hub.drop_plus (h := c.hub) (m := m) (u := u) caller
          have closes := close_unheld_plus (c := { c.withoutCaller key with hub := caller.drop c.hub }) (m := m)
            (u := u) (l := l)
          simp only [plus, ← dropped] at closes
          exact closes
  | release => exact close_unheld_plus (c := { c with held := false })
  | recv stream | drain stream | dropStream stream =>
      simp only [act, plus_free_stream]
      split <;> rfl
  | poll call =>
      simp only [act, plus_free_call, plus_hub, Hub.plus_calls]
      split
      · split <;> rfl
      · rfl
  | dropCall call =>
      simp only [act, plus_free_call]
      split <;> rfl
  | far deed => cases silent
  | purge | subscribe | onEvent | cancelHandler | advance | fire => rfl

theorem silent_link (a : Act) (silent : a.isSilent = true) : (c.act a).link = c.link := by
  have same : c.act a = (c.act a).plus 0 0 c.link := silent_plus (c := c) (m := 0) (u := 0) (l := c.link) a silent
  rw [same]
  rfl

end

-- The first link gives and takes what the second does, but for stray frames, as long as it hears.
structure Tracks (hears : Link → Prop) (alike : Link → Link → Prop) : Prop where
  send : ∀ l k s, alike l k → (l.send s).1 = (k.send s).1 ∧ alike (l.send s).2 (k.send s).2
  close : ∀ l k, alike l k → alike l.close.2 k.close.2
  deafen : ∀ l k, alike l k → alike l.deafen k.deafen
  receive : ∀ l k, hears l → alike l k → (∀ bytes, l.receive.1 = .frame bytes → Message.isStray bytes = false) →
    l.receive.1 = k.receive.1 ∧ alike l.receive.2 k.receive.2

-- The first connection is the second one but for its link and for so many more stray frames.
structure Resembles (alike : Link → Link → Prop) (m u : Nat) (c d : Connection) : Prop where
  same : c = d.plus m u c.link
  link : alike c.link d.link

section
variable {hears : Link → Prop} {alike : Link → Link → Prop} {m u : Nat} {c d : Connection}

theorem resembles_plus (link : Link) (near : alike link d.link) : Resembles alike m u (d.plus m u link) d := ⟨rfl, near⟩

theorem end_writer_plus (tracks : Tracks hears alike) (link : Link) (near : alike link d.link) :
    Resembles alike m u (d.plus m u link).endWriter d.endWriter := by
  have refused : ∀ (queue : List Outbound) (before : Connection),
      queue.foldl (fun c o => c.acknowledge o.call (.error .connectionClosed)) (before.plus m u link) =
        (queue.foldl (fun c o => c.acknowledge o.call (.error .connectionClosed)) before).plus m u link ∧
      (queue.foldl (fun c o => c.acknowledge o.call (.error .connectionClosed)) before).link = before.link := by
    intro queue
    induction queue with
    | nil => exact fun _ => ⟨rfl, rfl⟩
    | cons o queue ih => exact fun before => ih (before.acknowledge o.call _)
  obtain ⟨same, still⟩ := refused d.hub.outbound d
  simp only [endWriter, plus_hub, Hub.plus_outbound, same]
  refine ⟨rfl, ?_⟩
  dsimp only [plus]
  rw [still]
  exact tracks.close link d.link near

theorem fail_write_plus (tracks : Tracks hears alike) (link : Link) (near : alike link d.link) (call : Call)
    (fault : Error) :
    Resembles alike m u ((d.plus m u link).failWrite call fault) (d.failWrite call fault) := by
  have shut : ((d.plus m u link).acknowledge call (.error fault)).shutdown (.writeFailed fault.message) =
      ((d.acknowledge call (.error fault)).shutdown (.writeFailed fault.message)).plus m u link :=
    shutdown_plus (c := d.acknowledge call (.error fault)) _
  simp only [failWrite, shut]
  exact end_writer_plus tracks link near

theorem writer_resembles (tracks : Tracks hears alike) (resembles : Resembles alike m u c d) :
    Resembles alike m u c.moveWriter d.moveWriter := by
  obtain ⟨same, near⟩ := resembles
  rw [same]
  simp only [moveWriter, plus_writer, plus_hub, Hub.plus_is_closed, Hub.plus_outbound, plus_link]
  cases d.writer with
  | ended => exact resembles_plus c.link near
  | idle =>
      dsimp only
      split
      · exact end_writer_plus tracks c.link near
      · split
        · exact resembles_plus c.link near
        · exact ⟨rfl, near⟩
  | sending o left =>
      obtain ⟨sent, later⟩ := tracks.send c.link d.link left near
      dsimp only
      rcases first : c.link.send left with ⟨result, next⟩
      rcases second : d.link.send left with ⟨other, after⟩
      rw [first, second] at sent later
      dsimp only at sent later
      subst sent
      cases result with
      | done => exact ⟨rfl, later⟩
      | failed fault =>
          exact fail_write_plus
            (d := { d with link := after, writer := .sending o left }) tracks next later o.call fault
      | waiting rest =>
          dsimp only
          split
          · exact fail_write_plus
              (d := { d with link := after, writer := .sending o rest }) tracks next later o.call .connectionClosed
          · exact ⟨rfl, later⟩

theorem reader_resembles (tracks : Tracks hears alike) (resembles : Resembles alike m u c d)
    (awake : c.hub.isClosed = false → hears c.link)
    (sound : ∀ bytes, c.takes? (.move .reader) = some bytes → Message.isStray bytes = false) :
    Resembles alike m u c.moveReader d.moveReader := by
  obtain ⟨same, near⟩ := resembles
  have closed : c.hub.isClosed = d.hub.isClosed := by rw [same]; rfl
  simp only [moveReader]
  by_cases shut : c.hub.isClosed = true
  · rw [if_pos shut, if_pos (closed ▸ shut), same]
    exact ⟨rfl, tracks.deafen c.link d.link near⟩
  · rw [if_neg shut, if_neg (closed ▸ shut)]
    obtain ⟨received, later⟩ := tracks.receive c.link d.link (awake (eq_false_of_ne_true shut)) near
      fun bytes received => by
      exact sound bytes ((takes_reader bytes).mpr ⟨rfl, eq_false_of_ne_true shut, received⟩)
    rcases first : c.link.receive with ⟨result, next⟩
    rcases second : d.link.receive with ⟨other, after⟩
    rw [first, second] at received later
    dsimp only at received later
    subst received
    have moved : ({ c with link := next } : Connection) = ({ d with link := after } : Connection).plus m u next := by
      rw [same]
      rfl
    cases result with
    | frame bytes =>
        have hub : c.hub = d.hub.plus m u := by rw [same]; rfl
        refine ⟨?_, later⟩
        dsimp only
        rw [hub, Hub.frame_plus, same]
        rfl
    | waiting => exact ⟨moved, later⟩
    | panicked =>
        dsimp only
        rw [moved]
        exact ⟨rfl, tracks.deafen next after later⟩
    | ended =>
        dsimp only
        rw [moved, shutdown_plus]
        exact ⟨rfl, tracks.deafen next after later⟩
    | failed fault =>
        dsimp only
        rw [moved, shutdown_plus]
        exact ⟨rfl, tracks.deafen next after later⟩

theorem unheld_resembles (resembles : Resembles alike m u c d) : Resembles alike m u c.closeUnheld d.closeUnheld := by
  obtain ⟨same, near⟩ := resembles
  have link : d.closeUnheld.link = d.link := by
    simp only [closeUnheld]
    split <;> rfl
  rw [same, close_unheld_plus]
  exact ⟨rfl, link.symm ▸ near⟩

theorem act_resembles (tracks : Tracks hears alike) (resembles : Resembles alike m u c d) (a : Act)
    (awake : c.hub.isClosed = false → hears c.link)
    (far : ∀ deed, a = .far deed → alike (c.link.far deed) (d.link.far deed))
    (heeded : ∀ bytes, c.takes? a = some bytes → Message.isStray bytes = false) :
    Resembles alike m u (c.act a) (d.act a) := by
  cases silent : a.isSilent with
  | true =>
      rw [resembles.same, silent_plus a silent]
      exact ⟨rfl, (silent_link a silent).symm ▸ resembles.link⟩
  | false =>
      cases a with
      | move activity =>
          cases activity with
          | reader => exact unheld_resembles (reader_resembles tracks resembles awake heeded)
          | writer => exact unheld_resembles (writer_resembles tracks resembles)
          | caller | handler => cases silent
      | far deed =>
          refine ⟨?_, far deed rfl⟩
          rw [resembles.same]
          rfl
      | _ => cases silent

end

end Connection

end DevTools
