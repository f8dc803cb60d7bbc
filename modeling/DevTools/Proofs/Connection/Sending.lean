import DevTools.Proofs.Connection.Outbox
import DevTools.Proofs.Connection.Request
import DevTools.Proofs.Connection.Sessions

set_option autoImplicit false

namespace DevTools

def Request.farewell (session : SessionId) (id : UInt64) : Request :=
  ⟨id, "Target.detachFromTarget", some ⟨Json.renderObject [("sessionId", Json.quoted session.text)]⟩, none⟩

namespace Connection

-- What the operation asks of the hub as it begins, and of which hub: one that detaches a session asks after that.
def asks? (c : Connection) : Operation → Option (Option Token × Hub × Asked)
  | .detach session cancel =>
      if (c.hub.detachHere session).1 then
        some (cancel, (c.hub.detachHere session).2,
          ⟨(Command.detachFromTarget session).method, .payload ⟨(Command.detachFromTarget session).params⟩, none⟩)
      else none
  | operation => operation.asks?.map fun (cancel, asked) => (cancel, c.hub, asked)

def sends? (c : Connection) : Act → Option Request
  | .begin operation =>
      (c.asks? operation).bind fun (cancel, h, asked) => if c.clock.hasFired cancel then none else h.request? asked
  | _ => none

section
variable {c : Connection}

theorem ask_frames (use : Use) (cancel : Option Token) (asked : Asked) (clock : Clock) (h : Hub) :
    ∃ queue, (Caller.beginAsk use cancel asked clock h).2.outbound = h.outbound ++ queue ∧
      queue.map (·.frame) = (if clock.hasFired cancel then none else h.request? asked).toList.map Request.frame := by
  rw [begin_ask_hub]
  split
  · exact ⟨[], (List.append_nil _).symm, rfl⟩
  · exact Hub.post_frames

theorem silent_frames (h after : Hub) (same : after.outbound = h.outbound) :
    ∃ queue, after.outbound = h.outbound ++ queue ∧
      queue.map (·.frame) = (none : Option Request).toList.map Request.frame :=
  ⟨[], by rw [same, List.append_nil], rfl⟩

theorem detach_frames (session : SessionId) (cancel : Option Token) :
    ∃ queue, (Caller.beginDetach session cancel c.clock c.hub).2.outbound = c.hub.outbound ++ queue ∧
      queue.map (·.frame) = (c.sends? (.begin (.detach session cancel))).toList.map Request.frame := by
  have same := detach_outbound c.hub session
  rw [sends?, asks?, Caller.beginDetach]
  cases known : c.hub.sessions.get? session with
  | none =>
      have unattached : c.hub.sessions.isAttached session = false := by rw [SessionTable.isAttached, known]; rfl
      rw [Hub.detach_unattached c.hub session unattached]
      exact silent_frames c.hub c.hub rfl
  | some s =>
      rcases made : c.hub.detachHere session with ⟨attached, after⟩
      rw [made] at same
      cases attached with
      | false => exact silent_frames c.hub after same
      | true =>
          rw [← same]
          exact ask_frames .nothing cancel _ c.clock after

theorem opening_frames (operation : Operation) (begun : Progress × Hub) (opens : c.opening? operation = some begun) :
    ∃ queue, begun.2.outbound = c.hub.outbound ++ queue ∧
      queue.map (·.frame) = (c.sends? (.begin operation)).toList.map Request.frame := by
  cases operation with
  | send asked =>
      obtain rfl := Option.some.inj opens
      rw [begin_send_hub]
      exact Hub.post_frames
  | ask use cancel asked => exact Option.some.inj opens ▸ ask_frames use cancel asked c.clock c.hub
  | execute cancel command scope => exact Option.some.inj opens ▸ ask_frames command.use cancel _ c.clock c.hub
  | attach target cancel => exact Option.some.inj opens ▸ ask_frames (.attach target) cancel _ c.clock c.hub
  | detach session cancel => exact Option.some.inj opens ▸ detach_frames session cancel
  | waitForTarget target milliseconds =>
      obtain rfl := Option.some.inj opens
      refine silent_frames c.hub _ ?_
      rw [Caller.beginSeek]
      split <;> rfl
  | waitForCall w =>
      simp only [opening?] at opens
      split at opens
      · exact silent_frames c.hub begun.2 (Option.some.inj opens ▸ rfl)
      · cases opens
  | waitForNext stream milliseconds =>
      simp only [opening?] at opens
      split at opens
      · exact silent_frames c.hub begun.2 (Option.some.inj opens ▸ rfl)
      · cases opens
  | close => exact silent_frames c.hub begun.2 (Option.some.inj opens ▸ shutdown_outbound c.hub .closedHere)
  | waitForEvent | waitUntilClosed => exact silent_frames c.hub begun.2 (Option.some.inj opens ▸ rfl)

theorem act_sends (a : Act) : (c.queues a).map (·.frame) = (c.sends? a).toList.map Request.frame := by
  cases a with
  | begin operation =>
      cases opens : c.opening? operation with
      | none =>
          have nothing : c.sends? (.begin operation) = none := by
            cases operation with
            | waitForCall | waitForNext => rfl
            | _ => cases opens
          rw [queues, begin_nothing operation opens, List.drop_length, nothing]
          rfl
      | some begun =>
          obtain ⟨queue, outbound, frames⟩ := opening_frames operation begun opens
          rw [queues, (begin_entered operation begun opens).outbound, outbound, List.drop_left, frames]
  | _ => rfl

theorem asks_scoped (operation : Operation) (cancel : Option Token) (h : Hub) (asked : Asked)
    (asks : c.asks? operation = some (cancel, h, asked)) (session : SessionId) (scope : asked.scope = some session) :
    h = c.hub := by
  cases operation with
  | detach own token =>
      rw [asks?] at asks
      split at asks
      · cases asks
        cases scope
      · cases asks
  | send | ask | execute | attach =>
      cases asks
      rfl
  | _ => cases asks

theorem ask_goes (use : Use) (cancel : Option Token) (asked : Asked) (h : Hub) (waits : c.clock.hasFired cancel = false)
    (r : Request) (made : h.request? asked = some r) :
    ∃ caller, Caller.beginAsk use cancel asked c.clock h = (.inl caller, (h.post asked).2) := by
  obtain ⟨call, after, posts⟩ := Hub.post_goes made
  rw [Caller.beginAsk, waits, posts]
  exact ⟨_, rfl⟩

theorem detach_goes (session : SessionId) (token cancel : Option Token) (h : Hub) (asked : Asked)
    (asks : c.asks? (.detach session token) = some (cancel, h, asked))
    (waits : c.clock.hasFired cancel = false) (r : Request)
    (made : h.request? asked = some r) :
    ∃ caller, Caller.beginDetach session token c.clock c.hub = (.inl caller, (h.post asked).2) := by
  rw [asks?] at asks
  rw [Caller.beginDetach]
  cases known : c.hub.sessions.get? session with
  | none =>
      have unattached : c.hub.sessions.isAttached session = false := by rw [SessionTable.isAttached, known]; rfl
      rw [Hub.detach_unattached c.hub session unattached] at asks
      cases asks
  | some s =>
      rcases detached : c.hub.detachHere session with ⟨attached, after⟩
      rw [detached] at asks
      cases attached with
      | false => cases asks
      | true =>
          cases asks
          exact ask_goes .nothing token _ after waits r made

theorem sends_begin (a : Act) (r : Request) (sent : c.sends? a = some r) :
    ∃ operation cancel h asked, a = .begin operation ∧
    c.asks? operation = some (cancel, h, asked) ∧ h.request? asked = some r ∧ (c.act a).hub = (h.post asked).2 := by
  cases a with
  | begin operation =>
      obtain ⟨⟨cancel, h, asked⟩, asks, made⟩ := Option.bind_eq_some_iff.mp sent
      dsimp only at made
      have waits : c.clock.hasFired cancel = false := by
        by_contra fired
        rw [if_pos (eq_true_of_ne_false fired)] at made
        cases made
      rw [waits, if_neg Bool.false_ne_true] at made
      refine ⟨operation, cancel, h, asked, rfl, asks, made, ?_⟩
      have entered : ∀ begun : Progress × Hub, (∃ caller, begun = (.inl caller, (h.post asked).2)) →
          (c.enter begun).2.hub = (h.post asked).2 := by
        intro begun goes
        obtain ⟨caller, same⟩ := goes
        rw [same]
        rfl
      cases operation with
      | send request =>
          cases asks
          obtain ⟨call, after, posts⟩ := Hub.post_goes made
          refine entered _ ⟨.sending call none, ?_⟩
          rw [Caller.beginSend, posts]
      | ask use token request =>
          cases asks
          exact entered _ (ask_goes use cancel asked c.hub waits r made)
      | execute token command scope =>
          cases asks
          exact entered _ (ask_goes command.use cancel _ c.hub waits r made)
      | attach target token =>
          cases asks
          exact entered _ (ask_goes (.attach target) cancel _ c.hub waits r made)
      | detach session token => exact entered _ (detach_goes session token cancel h asked asks waits r made)
      | _ => cases asks
  | _ => cases sent

theorem sends_attached (a : Act) (r : Request) (sent : c.sends? a = some r) (session : SessionId)
    (scope : r.session = some session) :
    c.hub.sessions.isAttached session = true ∧ (c.act a).hub.sessions.isAttached session = true := by
  obtain ⟨operation, cancel, h, asked, -, asks, made, hub⟩ := sends_begin a r sent
  obtain ⟨accepted, -, built⟩ := Hub.request_accepted made
  have own : asked.scope = some session := (Asked.request_asked built).2.2.1.symm.trans scope
  obtain rfl := asks_scoped operation cancel h asked asks session own
  have attached := Hub.refusal_attached c.hub asked session own accepted
  rw [hub, Hub.post_sessions]
  exact ⟨attached, attached⟩

theorem sends_farewell (session : SessionId) (cancel : Option Token) (r : Request)
    (sent : c.sends? (.begin (.detach session cancel)) = some r) : r = .farewell session r.id ∧
      c.hub.sessions.isAttached session = true ∧
      (c.act (.begin (.detach session cancel))).hub.sessions = (c.hub.sessions.markDetached session).2 := by
  obtain ⟨operation, token, h, asked, same, asks, made, hub⟩ := sends_begin _ r sent
  cases same
  rw [asks?] at asks
  cases attached : c.hub.sessions.isAttached session with
  | false =>
      rw [Hub.detach_unattached c.hub session attached] at asks
      cases asks
  | true =>
      split at asks
      · cases asks
        rw [hub, Hub.post_sessions, Hub.detach_sessions]
        obtain ⟨-, method, scope, params⟩ := Asked.request_asked (Hub.request_accepted made).2.2
        obtain ⟨id, named, carried, under⟩ := r
        cases method
        cases scope
        rw [Params.payload?, Params.render] at params
        dsimp only [Command.params] at params
        rw [Params.object_kept] at params
        cases params
        exact ⟨rfl, rfl, rfl⟩
      · cases asks

end

end Connection

end DevTools
