import DevTools.Proofs.Connection.Holding
import DevTools.Proofs.Connection.Intake
import DevTools.Proofs.Connection.Numbers
import DevTools.Proofs.Connection.Sending

set_option autoImplicit false

namespace DevTools

def Caller.callDeeds (caller : Caller) (clock : Clock) (t : CallTable) : List CallDeed :=
  match caller with
  | .sending call (some (.error _)) => [.abandon call]
  | .asking _ cancel call written =>
      if clock.hasFired cancel then [.abandon call]
      else match written with
        | some (.error _) => [.abandon call]
        | _ => []
  | .awaiting _ w | .collecting w =>
      if (t.outcome? w.call).isSome then [.collect w.call]
      else if (w.fault? clock).isSome then [.abandon w.call] else []
  | _ => []

theorem Caller.deeds_own (caller : Caller) (clock : Clock) (t : CallTable) : caller.callDeeds clock t = [] ∨
    ∃ call, caller.call? = some call ∧
      (caller.callDeeds clock t = [.collect call] ∨ caller.callDeeds clock t = [.abandon call]) := by
  have waits : ∀ w : CallWait, (Caller.collecting w).callDeeds clock t = [] ∨
      (Caller.collecting w).callDeeds clock t = [.collect w.call] ∨ (Caller.collecting w).callDeeds clock t =
        [.abandon w.call] := by
    intro w
    simp only [callDeeds]
    split
    · exact Or.inr (Or.inl rfl)
    · split
      · exact Or.inr (Or.inr rfl)
      · exact Or.inl rfl
  cases caller with
  | sending call written =>
      rcases written with _ | _ | _
      · exact Or.inl rfl
      · exact Or.inr ⟨call, rfl, Or.inr rfl⟩
      · exact Or.inl rfl
  | asking use cancel call written =>
      simp only [callDeeds]
      split
      · exact Or.inr ⟨call, rfl, Or.inr rfl⟩
      · rcases written with _ | _ | _
        · exact Or.inl rfl
        · exact Or.inr ⟨call, rfl, Or.inr rfl⟩
        · exact Or.inl rfl
  | awaiting use w => exact (waits w).imp_right fun ends => ⟨w.call, rfl, ends⟩
  | collecting w => exact (waits w).imp_right fun ends => ⟨w.call, rfl, ends⟩
  | _ => exact Or.inl rfl

theorem finish_table (w : CallWait) (clock : Clock) (t : CallTable) :
    (w.finish? clock t).elim t (·.2) = t.performs ((Caller.collecting w).callDeeds clock t) := by
  cases settled : t.outcome? w.call with
  | some o =>
      rw [finish_settled w clock t o settled]
      simp [Caller.callDeeds, settled, CallTable.performs]
  | none =>
      rw [finish_unsettled w clock t settled]
      cases gaveUp : w.fault? clock <;> simp [Caller.callDeeds, settled, gaveUp, CallTable.performs]

theorem move_table (caller : Caller) (clock : Clock) (ended : Bool) (h : Hub) :
    (caller.move clock ended h).2.calls = h.calls.performs (caller.callDeeds clock h.calls) := by
  cases caller with
  | sending call written =>
      simp only [Caller.move, Caller.callDeeds]
      split <;> rfl
  | asking use cancel call written =>
      simp only [Caller.move, Caller.callDeeds]
      split
      · rfl
      · split <;> rfl
  | awaiting use w =>
      have ended := finish_table w clock h.calls
      simp only [Caller.move]
      split
      · next finish =>
          rw [finish] at ended
          exact ended
      · next finish =>
          rw [finish] at ended
          rw [conclude_calls]
          exact ended
  | collecting w =>
      have ended := finish_table w clock h.calls
      simp only [Caller.move]
      split <;> next finish => rw [finish] at ended; exact ended
  | listening w own | seeking w | closing | untilClosed =>
      simp only [Caller.move]
      split <;> rfl

theorem drop_table (caller : Caller) (h : Hub) :
    (caller.drop h).calls = h.calls.performs (caller.call?.toList.map .abandon) := by
  cases caller <;> rfl

namespace Connection

def askDeeds (c : Connection) (operation : Operation) : List CallDeed :=
  match c.asks? operation with
  | some (cancel, h, asked) => if c.clock.hasFired cancel then [] else h.callDeeds (.post asked)
  | none => []

def callDeeds (c : Connection) (a : Act) : List CallDeed :=
  match a with
  | .begin (.detach session cancel) => c.hub.sweeps session ++ c.askDeeds (.detach session cancel)
  | .begin operation => c.askDeeds operation
  | .move (.caller key) => (c.caller? key).elim [] fun caller => caller.callDeeds c.clock c.hub.calls
  | .abort key => (c.caller? key).elim [] fun caller => caller.call?.toList.map .abandon
  | .poll call => if c.isFreeCall call then [.collect call] else []
  | .dropCall call => if c.isFreeCall call then [.abandon call] else []
  | _ => (c.takes? a).elim [] fun bytes => c.hub.callDeeds (.frame bytes)

section
variable {c : Connection}

theorem ask_table (use : Use) (cancel : Option Token) (asked : Asked) (h : Hub) :
    (Caller.beginAsk use cancel asked c.clock h).2.calls =
      h.calls.performs (if c.clock.hasFired cancel then [] else h.callDeeds (.post asked)) := by
  rw [begin_ask_hub]
  split
  · rfl
  · exact Hub.post_table h asked

theorem begin_detach_table (session : SessionId) (cancel : Option Token) :
    (Caller.beginDetach session cancel c.clock c.hub).2.calls =
      c.hub.calls.performs (c.callDeeds (.begin (.detach session cancel))) := by
  rw [callDeeds, CallTable.performs_append, ← Hub.detach_table, Caller.beginDetach, askDeeds, asks?]
  cases known : c.hub.sessions.get? session with
  | none =>
      have unattached : c.hub.sessions.isAttached session = false := by rw [SessionTable.isAttached, known]; rfl
      rw [Hub.detach_unattached c.hub session unattached]
      rfl
  | some s =>
      rcases c.hub.detachHere session with ⟨attached, after⟩
      cases attached with
      | false => rfl
      | true => exact ask_table .nothing cancel _ after

theorem begin_detach_sessions (session : SessionId) (cancel : Option Token) (clock : Clock) (h : Hub) :
    (Caller.beginDetach session cancel clock h).2.sessions = (h.sessions.markDetached session).2 := by
  rcases begin_detach_hub session cancel clock h with only | ⟨asked, posts⟩
  · rw [only, Hub.detach_sessions]
  · rw [posts, Hub.post_sessions, Hub.detach_sessions]

theorem start_table (operation : Operation) (isOpen : (c.act (.begin operation)).hub.isClosed = false) :
    (c.act (.begin operation)).hub.calls = c.hub.calls.performs (c.callDeeds (.begin operation)) := by
  cases operation with
  | send asked =>
      have hub : (c.act (.begin (.send asked))).hub = (Caller.beginSend asked c.hub).2 := enter_open_hub _ isOpen
      rw [hub, begin_send_hub]
      exact Hub.post_table c.hub asked
  | ask use cancel asked =>
      exact (congrArg Hub.calls (enter_open_hub (Caller.beginAsk use cancel asked c.clock c.hub) isOpen)).trans
        (ask_table use cancel asked c.hub)
  | execute cancel command scope =>
      exact (congrArg Hub.calls
        (enter_open_hub (Caller.beginCommand command.use cancel command scope c.clock c.hub) isOpen)).trans
        (ask_table _ cancel _ c.hub)
  | attach target cancel =>
      exact (congrArg Hub.calls (enter_open_hub (Caller.beginAttach target cancel c.clock c.hub) isOpen)).trans
        (ask_table _ cancel _ c.hub)
  | detach session cancel =>
      exact (congrArg Hub.calls (enter_open_hub (Caller.beginDetach session cancel c.clock c.hub) isOpen)).trans
        (begin_detach_table session cancel)
  | waitForTarget target milliseconds =>
      refine (congrArg Hub.calls (enter_open_hub (Caller.beginSeek target milliseconds c.clock c.hub) isOpen)).trans ?_
      simp only [Caller.beginSeek]
      split <;> rfl
  | waitForEvent filter milliseconds => rfl
  | waitForCall w =>
      simp only [act, start]
      split <;> rfl
  | waitForNext stream milliseconds =>
      simp only [act, start]
      split <;> rfl
  | close =>
      have closed : (c.hub.shutdown .closedHere).isClosed = true :=
        Hub.performs_shutdown c.hub [.shutdown .closedHere] .closedHere List.mem_cons_self
      exact absurd (closed.symm.trans isOpen) (by decide)
  | waitUntilClosed => rfl

theorem reader_table (isOpen : c.moveReader.hub.isClosed = false) :
    c.moveReader.hub.calls = c.hub.calls.performs (c.callDeeds (.move .reader)) := by
  have closes : ∀ reason, (c.hub.shutdown reason).isClosed ≠ false := by
    intro reason still
    have closed : (c.hub.shutdown reason).isClosed = true :=
      Hub.performs_shutdown c.hub [.shutdown reason] reason List.mem_cons_self
    rw [closed] at still
    cases still
  simp only [callDeeds, takes?]
  simp only [moveReader] at isOpen ⊢
  split
  · rfl
  · next notClosed =>
      rw [if_neg notClosed] at isOpen
      rcases received : c.link.receive with ⟨result, link⟩
      rw [received] at isOpen
      cases result with
      | frame bytes => exact Hub.perform_table c.hub (.frame bytes)
      | ended => exact absurd isOpen (closes _)
      | failed fault => exact absurd isOpen (closes _)
      | waiting | panicked => rfl

theorem writer_table (isOpen : c.moveWriter.hub.isClosed = false) : c.moveWriter.hub.calls = c.hub.calls := by
  have fails : ∀ (before : Connection) (call : Call) (fault : Error),
      (before.failWrite call fault).hub.isClosed ≠ false := by
    intro before call fault still
    rw [(fail_write_hub call fault).1] at still
    have closed : (before.hub.performs [.shutdown (.writeFailed fault.message), .unqueueAll]).isClosed = true :=
      Hub.performs_shutdown before.hub _ _ List.mem_cons_self
    exact absurd (closed.symm.trans still) (by decide)
  cases writing : c.writer with
  | ended => simp only [moveWriter, writing]
  | idle =>
      cases closed : c.hub.isClosed with
      | true =>
          simp only [moveWriter, writing, closed, if_true]
          rw [end_writer_hub.1]
          rfl
      | false => cases queued : c.hub.outbound <;> simp [moveWriter, writing, closed, queued]
  | sending o left =>
      rcases sent : c.link.send left with ⟨result, link⟩
      cases result with
      | done =>
          simp only [moveWriter, writing, sent]
          rfl
      | failed fault =>
          simp only [moveWriter, writing, sent] at isOpen
          exact absurd isOpen (fails _ _ _)
      | waiting left =>
          cases closed : c.hub.isClosed with
          | true =>
              simp only [moveWriter, writing, sent, closed, if_true] at isOpen
              exact absurd isOpen (fails _ _ _)
          | false => simp [moveWriter, writing, sent, closed]

theorem caller_table (key : Nat) :
    (c.moveCaller key).hub.calls = c.hub.calls.performs (c.callDeeds (.move (.caller key))) := by
  simp only [moveCaller, callDeeds]
  cases c.caller? key with
  | none => rfl
  | some caller =>
      have made := move_table caller c.clock c.tasksEnded c.hub
      dsimp only
      split <;> next moved => rw [moved] at made; exact made

theorem handler_table (stream : Nat) : (c.moveHandler stream).hub.calls = c.hub.calls := by
  simp only [moveHandler]
  split
  · rfl
  · split
    · split <;> rfl
    · split
      · rfl
      · split <;> rfl

theorem act_open_table (a : Act) (isOpen : (c.act a).hub.isClosed = false) :
    (c.act a).hub.calls = c.hub.calls.performs (c.callDeeds a) := by
  cases a with
  | begin operation => exact start_table operation isOpen
  | move activity =>
      have same : (c.act (.move activity)).hub = _ := unheld_open _ isOpen
      rw [same] at isOpen ⊢
      cases activity with
      | reader => exact reader_table isOpen
      | writer => exact writer_table isOpen
      | caller key => exact caller_table key
      | handler stream => exact handler_table stream
  | abort key =>
      simp only [act, abort] at isOpen ⊢
      cases found : c.caller? key with
      | none => simp only [callDeeds, found]; rfl
      | some caller =>
          simp only [found] at isOpen ⊢
          rw [unheld_open _ isOpen]
          simp only [callDeeds, found]
          exact drop_table caller c.hub
  | release => exact congrArg Hub.calls (unheld_open { c with held := false } isOpen)
  | poll call =>
      simp only [act, callDeeds]
      split
      · cases collected : c.hub.calls.collect call with
        | none => simp [CallTable.performs, CallTable.perform, collected]
        | some result => simp [CallTable.performs, CallTable.perform, collected]
      · rfl
  | dropCall call =>
      simp only [act, callDeeds]
      split <;> rfl
  | recv | drain | dropStream =>
      simp only [act]
      split <;> rfl
  | _ => rfl

end

end Connection

end DevTools
