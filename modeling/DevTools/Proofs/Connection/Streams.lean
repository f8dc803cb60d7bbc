import DevTools.Proofs.Connection.Intake
import DevTools.Proofs.Event.Registry

set_option autoImplicit false

namespace DevTools

def Router.performs (r : Router) (deeds : List RouterDeed) : Router := deeds.foldl perform r

namespace Router

variable {r : Router}

theorem close_closed (shut : r.closed = true) : r.close.2 = r := by simp [close, shut]

theorem performs_closed (deeds : List RouterDeed) (shut : r.closed = true) : (r.performs deeds).closed = true := by
  induction deeds generalizing r with
  | nil => exact shut
  | cons d deeds ih => exact ih (by rw [perform_closed, shut, Bool.true_or])

end Router

namespace Hub

def Agrees (h : Hub) : Prop := h.router.closed = h.isClosed

-- The router has come to this, and was closed after that if the connection is closed.
def Routed (h : Hub) (r : Router) : Prop := h.router = if h.isClosed then r.close.2 else r

section
variable {h after : Hub} {r : Router}

theorem routed_shutdown (routed : h.Routed r) (reason : CloseReason) : (h.shutdown reason).Routed r := by
  rw [shutdown]
  cases shut : h.isClosed with
  | true => exact routed
  | false =>
      rw [Routed, shut] at routed
      rw [if_neg Bool.false_ne_true]
      exact congrArg (·.close.2) routed

theorem routed_performs (agrees : h.Agrees) (deeds : List RouterDeed) (router : after.router = h.router.performs deeds)
    (closed : after.isClosed = h.isClosed) : after.Routed (h.router.performs deeds) := by
  rw [Routed, router, closed, ← agrees]
  cases shut : h.router.closed with
  | true => exact (Router.close_closed (Router.performs_closed deeds shut)).symm
  | false => rfl

theorem routed_nothing (agrees : h.Agrees) (router : after.router = h.router) (closed : after.isClosed = h.isClosed) :
    after.Routed h.router :=
  routed_performs agrees [] router closed

theorem perform_agrees (agrees : h.Agrees) (d : Deed) : (h.perform d).Agrees := by
  cases d with
  | post asked =>
      obtain ⟨_, _, made⟩ := post_hub h asked
      rw [perform, made]
      exact agrees
  | detach session =>
      obtain ⟨_, _, made⟩ := detach_hub h session
      rw [perform, made]
      exact agrees
  | frame bytes =>
      obtain ⟨_, _, _, _, made, same | ⟨e, dispatched⟩⟩ := frame_hub h bytes
      · rw [perform, made, same]
        exact agrees
      · rw [perform, made, dispatched]
        exact agrees
  | shutdown reason =>
      rw [perform, shutdown]
      split
      · exact agrees
      · next isOpen =>
          have wasOpen : h.router.closed = false := agrees.trans (eq_false_of_ne_true isOpen)
          simp [Agrees, Router.close, wasOpen, isClosed]
  | _ => exact agrees

theorem performs_agrees (agrees : h.Agrees) (deeds : List Deed) : (h.performs deeds).Agrees := by
  induction deeds generalizing h with
  | nil => exact agrees
  | cons d deeds ih => exact ih (perform_agrees agrees d)

theorem frame_router (h : Hub) (bytes : Bytes) : (h.takeFrame bytes).isClosed = h.isClosed ∧
    (h.takeFrame bytes).router =
    match Message.decode bytes with
    | .ok (.event e) => if e.session.any h.sessions.isDetached then h.router else (h.router.dispatch e).2
    | _ => h.router := by
  constructor
  · obtain ⟨_, _, _, _, made, -⟩ := frame_hub h bytes
    rw [made]
    rfl
  · simp only [takeFrame]
    cases Message.decode bytes with
    | error fault => rfl
    | ok message =>
        cases message with
        | request r => rfl
        | response r =>
            simp only [takeResponse]
            split <;> rfl
        | event e =>
            simp only [takeEvent]
            split
            · rfl
            · have same := (apply_routing h e).1
              simp only [dispatch, same]
              split <;> rfl

end

end Hub

def Caller.routing (caller : Caller) (clock : Clock) (r : Router) : List RouterDeed :=
  match caller with
  | .listening w own =>
      let leave := if own then [.drop w.stream] else []
      match r.peek w.stream with
      | .event _ => .take w.stream :: leave
      | .ended => leave
      | .waiting => if clock.hasPassed w.limit then leave else []
  | _ => []

def Handler.routing (h : Handler) (r : Router) : List RouterDeed :=
  if h.busy.isSome then []
  else if h.cancelled then [.drop h.stream]
  else match r.peek h.stream with
    | .event _ => [.take h.stream]
    | .ended => [.drop h.stream]
    | .waiting => []

theorem Caller.drop_router (caller : Caller) (h : Hub) :
    (caller.drop h).router = h.router.performs (caller.stream?.toList.map .drop) ∧
      (caller.drop h).isClosed = h.isClosed := by
  cases caller <;> exact ⟨rfl, rfl⟩

theorem Caller.move_router (caller : Caller) (clock : Clock) (ended : Bool) (h : Hub) :
    (caller.move clock ended h).2.router = h.router.performs (caller.routing clock h.router) ∧
      (caller.move clock ended h).2.isClosed = h.isClosed := by
  cases caller with
  | listening w own =>
      have taking : h.router.take w.stream = (h.router.peek w.stream, (h.router.take w.stream).2) := rfl
      have leaves : ∀ r : Router, (if own then r.drop w.stream else r) = r.performs (if own then [.drop w.stream]
          else []) := by
        intro r
        cases own <;> rfl
      simp only [move, EventWait.finish?, routing]
      rw [taking]
      cases h.router.peek w.stream with
      | event e => exact ⟨leaves _, rfl⟩
      | ended => exact ⟨leaves _, rfl⟩
      | waiting =>
          cases clock.hasPassed w.limit with
          | true => exact ⟨leaves _, rfl⟩
          | false => exact ⟨rfl, rfl⟩
  | sending call written =>
      simp only [move]
      split <;> exact ⟨rfl, rfl⟩
  | asking use cancel call written =>
      simp only [move]
      split
      · exact ⟨rfl, rfl⟩
      · split <;> exact ⟨rfl, rfl⟩
  | awaiting use w =>
      simp only [move]
      split
      · exact ⟨rfl, rfl⟩
      · next outcome calls _ =>
          rcases conclude_hub use outcome { h with calls } with same | ⟨_, _, _, -, -, -, same⟩
          · rw [same]
            exact ⟨rfl, rfl⟩
          · rw [same]
            exact ⟨rfl, rfl⟩
  | collecting w =>
      simp only [move]
      split <;> exact ⟨rfl, rfl⟩
  | seeking w =>
      simp only [move]
      split <;> exact ⟨rfl, rfl⟩
  | closing joins =>
      simp only [move]
      split <;> exact ⟨rfl, rfl⟩
  | untilClosed =>
      simp only [move]
      split <;> exact ⟨rfl, rfl⟩

namespace Connection

def routing (c : Connection) : Act → List RouterDeed
  | .subscribe filter | .onEvent filter _ _ | .begin (.waitForEvent filter _) => [.subscribe filter]
  | .recv stream => if c.isFreeStream stream then [.take stream] else []
  | .drain stream => if c.isFreeStream stream then [.drain stream] else []
  | .dropStream stream => if c.isFreeStream stream then [.drop stream] else []
  | .abort key => ((c.caller? key).bind (·.stream?)).toList.map .drop
  | .move (.caller key) => (c.caller? key).elim [] (·.routing c.clock c.hub.router)
  | .move (.handler stream) => (c.handler? stream).elim [] (·.routing c.hub.router)
  | .move .reader => (c.routes? (.move .reader)).toList.map .dispatch
  | _ => []

section
variable {c : Connection} {r : Router}

theorem unheld_routed (before : Connection) (routed : before.hub.Routed r) : before.closeUnheld.hub.Routed r := by
  simp only [closeUnheld]
  split
  · exact routed
  · exact Hub.routed_shutdown routed .closedHere

theorem enter_routed (begun : Progress × Hub) (routed : begun.2.Routed r) : (c.enter begun).2.hub.Routed r := by
  rcases begun with ⟨progress, hub⟩
  cases progress with
  | inl caller => exact routed
  | inr result =>
      rw [enter_concluded]
      exact unheld_routed _ routed

theorem reader_routed (agrees : c.hub.Agrees) :
    c.moveReader.hub.Routed (c.hub.router.performs (c.routing (.move .reader))) := by
  simp only [routing, moveReader]
  cases shut : c.hub.isClosed with
  | true =>
      have nothing : c.routes? (.move .reader) = none := by simp [routes?, notes_taken, takes?, shut]
      rw [nothing]
      exact Hub.routed_nothing agrees rfl rfl
  | false =>
      rcases received : c.link.receive with ⟨result, link⟩
      cases result with
      | frame bytes =>
          obtain ⟨closed, router⟩ := Hub.frame_router c.hub bytes
          refine Hub.routed_performs agrees _ (router.trans ?_) closed
          simp only [routes?, notes_taken, takes?, shut, received, Option.bind_some, Bool.false_eq_true, if_false]
          cases Message.decode bytes with
          | error fault => rfl
          | ok message =>
              cases message with
              | event e =>
                  by_cases dropped : e.session.any c.hub.sessions.isDetached = true
                  · simp [Option.filter_some, dropped, Router.performs]
                  · simp [Option.filter_some, eq_false_of_ne_true dropped, Router.performs, Router.perform]
              | request | response => rfl
      | ended | failed =>
          have nothing : c.routes? (.move .reader) = none := by simp [routes?, notes_taken, takes?, shut, received]
          rw [nothing]
          exact Hub.routed_shutdown (Hub.routed_nothing agrees rfl rfl) _
      | waiting | panicked =>
          have nothing : c.routes? (.move .reader) = none := by simp [routes?, notes_taken, takes?, shut, received]
          rw [nothing]
          exact Hub.routed_nothing agrees rfl rfl

theorem writer_routed (agrees : c.hub.Agrees) : c.moveWriter.hub.Routed c.hub.router := by
  have still : c.hub.Routed c.hub.router := Hub.routed_nothing agrees rfl rfl
  simp only [moveWriter]
  split
  · exact still
  · split
    · rw [end_writer_hub.1]
      exact still
    · split <;> exact still
  · split
    · exact still
    · rw [(fail_write_hub _ _).1]
      exact Hub.routed_shutdown still _
    · split
      · rw [(fail_write_hub _ _).1]
        exact Hub.routed_shutdown still _
      · exact still

theorem handler_found (stream : Nat) (h : Handler) (found : c.handler? stream = some h) :
    h ∈ c.handlers ∧ h.stream = stream :=
  ⟨List.mem_of_find?_eq_some found, by simpa using List.find?_some found⟩

theorem handler_router (stream : Nat) : (c.moveHandler stream).hub.isClosed = c.hub.isClosed ∧
    (c.moveHandler stream).hub.router = c.hub.router.performs (c.routing (.move (.handler stream))) := by
  simp only [routing, moveHandler]
  cases found : c.handler? stream with
  | none => exact ⟨rfl, rfl⟩
  | some h =>
      have own := (handler_found stream h found).2
      subst own
      have taking : c.hub.router.take h.stream = (c.hub.router.peek h.stream, (c.hub.router.take h.stream).2) := rfl
      simp only [Option.elim_some, Handler.routing]
      cases h.busy with
      | some work =>
          dsimp only
          split <;> exact ⟨rfl, rfl⟩
      | none =>
          dsimp only
          cases h.cancelled with
          | true => exact ⟨rfl, rfl⟩
          | false =>
              rw [taking]
              cases c.hub.router.peek h.stream <;> exact ⟨rfl, rfl⟩

theorem start_routed (agrees : c.hub.Agrees) (operation : Operation) :
    (c.act (.begin operation)).hub.Routed (c.hub.router.performs (c.routing (.begin operation))) := by
  have still : c.hub.Routed c.hub.router := Hub.routed_nothing agrees rfl rfl
  have posted : ∀ (h : Hub) (asked : Asked), h.Routed c.hub.router → (h.post asked).2.Routed c.hub.router := by
    intro h asked routed
    obtain ⟨_, _, made⟩ := Hub.post_hub h asked
    rw [made]
    exact routed
  have asks : ∀ (h : Hub) use cancel asked, h.Routed c.hub.router →
      (Caller.beginAsk use cancel asked c.clock h).2.Routed c.hub.router := by
    intro h use cancel asked routed
    rw [begin_ask_hub]
    split
    · exact routed
    · exact posted h asked routed
  cases operation with
  | send asked =>
      refine enter_routed _ ?_
      rw [begin_send_hub]
      exact posted c.hub asked still
  | ask use cancel asked => exact enter_routed _ (asks c.hub use cancel asked still)
  | execute cancel command scope => exact enter_routed _ (asks c.hub _ cancel _ still)
  | attach target cancel => exact enter_routed _ (asks c.hub _ cancel _ still)
  | detach session cancel =>
      have detached : (c.hub.detachHere session).2.Routed c.hub.router := by
        obtain ⟨_, _, made⟩ := Hub.detach_hub c.hub session
        rw [made]
        exact still
      refine enter_routed _ ?_
      rcases begin_detach_hub session cancel c.clock c.hub with same | ⟨asked, same⟩
      · rw [same]
        exact detached
      · rw [same]
        exact posted _ asked detached
  | waitForTarget target milliseconds =>
      refine enter_routed _ ?_
      simp only [Caller.beginSeek]
      split <;> exact still
  | waitForEvent filter milliseconds => exact enter_routed _ (Hub.routed_performs agrees [.subscribe filter] rfl rfl)
  | waitForCall w =>
      simp only [act, start]
      split
      · exact enter_routed _ still
      · exact still
  | waitForNext stream milliseconds =>
      simp only [act, start]
      split
      · exact enter_routed _ still
      · exact still
  | close => exact Hub.routed_shutdown still .closedHere
  | waitUntilClosed => exact enter_routed _ still

theorem act_routed (agrees : c.hub.Agrees) (a : Act) : (c.act a).hub.Routed (c.hub.router.performs (c.routing a)) := by
  have still : c.hub.Routed c.hub.router := Hub.routed_nothing agrees rfl rfl
  cases a with
  | move activity =>
      refine unheld_routed _ ?_
      cases activity with
      | reader => exact reader_routed agrees
      | writer => exact writer_routed agrees
      | caller key =>
          simp only [moveCaller, routing]
          cases found : c.caller? key with
          | none => exact still
          | some caller =>
              obtain ⟨router, closed⟩ := caller.move_router c.clock c.tasksEnded c.hub
              have routed := Hub.routed_performs agrees _ router closed
              dsimp only [Option.elim_some]
              split
              · next moved =>
                  rw [moved] at routed
                  exact routed
              · next moved =>
                  rw [moved] at routed
                  exact routed
      | handler stream =>
          obtain ⟨closed, router⟩ := handler_router (c := c) stream
          exact Hub.routed_performs agrees _ router closed
  | begin operation => exact start_routed agrees operation
  | abort key =>
      simp only [act, abort, routing]
      cases found : c.caller? key with
      | none => exact still
      | some caller =>
          obtain ⟨router, closed⟩ := caller.drop_router c.hub
          exact unheld_routed _ (Hub.routed_performs agrees _ router closed)
  | release => exact unheld_routed _ still
  | subscribe filter | onEvent filter delay answer => exact Hub.routed_performs agrees [.subscribe filter] rfl rfl
  | recv stream | drain stream | dropStream stream =>
      simp only [act, routing]
      split
      · exact Hub.routed_performs agrees _ rfl rfl
      · exact still
  | poll call =>
      simp only [act]
      split
      · split <;> exact still
      · exact still
  | dropCall call =>
      simp only [act]
      split <;> exact still
  | purge | cancelHandler | advance | fire | far => exact still

theorem act_agrees (kept : c.Kept) (agrees : c.hub.Agrees) (a : Act) : (c.act a).hub.Agrees := by
  obtain ⟨deeds, made, -⟩ := act_deeds kept a
  rw [made]
  exact Hub.performs_agrees agrees deeds

end

end Connection

end DevTools
