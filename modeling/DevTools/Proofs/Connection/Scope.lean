import DevTools.Proofs.Connection.Rejection
import DevTools.Proofs.Session.Attachment

set_option autoImplicit false

namespace DevTools

namespace Hub

def Covered (h : Hub) : Prop :=
  ∀ e ∈ h.calls.pending, ∀ session, e.session = some session → h.sessions.isAttached session = true

theorem post_sessions (h : Hub) (asked : Asked) : (h.post asked).2.sessions = h.sessions := by
  obtain ⟨_, _, made⟩ := post_hub h asked
  rw [made]

theorem dispatch_sessions (h : Hub) (e : Event) : (h.dispatch e).sessions = h.sessions := (dispatch_rest h e).2.1

theorem response_sessions (h : Hub) (r : Response) : (h.takeResponse r).sessions = h.sessions := by
  simp only [takeResponse]
  split <;> rfl

theorem detach_loses (h : Hub) (session other : SessionId) (attached : h.sessions.isAttached other = true)
    (lost : (h.detachHere session).2.sessions.isAttached other = false) : h.sweeps session = [.failSession other] := by
  cases was : h.sessions.isAttached session with
  | true =>
      rw [detach_attached h session was] at lost
      by_cases same : other = session
      · simp [sweeps, same, was]
      · rw [SessionTable.mark_other session other same, attached] at lost
        cases lost
  | false =>
      rw [detach_unattached h session was, attached] at lost
      cases lost

theorem frame_loses (h : Hub) (bytes : Bytes) (session : SessionId) (attached : h.sessions.isAttached session = true)
    (lost : (h.takeFrame bytes).sessions.isAttached session = false) :
    h.callDeeds (.frame bytes) = [.failSession session] := by
  have same : ∀ after : Hub, after.sessions = h.sessions → after.sessions.isAttached session ≠ false := by
    intro after unchanged gone
    rw [unchanged, attached] at gone
    cases gone
  simp only [takeFrame] at lost
  simp only [callDeeds, gone?]
  cases decoded : Message.decode bytes with
  | error fault =>
      rw [decoded] at lost
      exact absurd lost (same _ rfl)
  | ok message =>
      rw [decoded] at lost
      cases message with
      | request asked => exact absurd lost (same _ rfl)
      | response r => exact absurd lost (same _ (response_sessions h r))
      | event e =>
          simp only [takeEvent] at lost
          cases detached : e.session.any h.sessions.isDetached with
          | true =>
              simp only [detached, if_true] at lost
              exact absurd lost (same _ rfl)
          | false =>
              simp only [detached, Bool.false_eq_true, if_false, dispatch_sessions] at lost ⊢
              rcases apply_hub h e with ⟨_, unchanged | ⟨registered, target, made⟩⟩ | ⟨gone, detaches, made⟩
              · exact absurd lost (same _ (by rw [unchanged]))
              · rw [made, SessionTable.register_keeps session registered target attached] at lost
                cases lost
              · rw [made] at lost
                rw [detaches]
                exact detach_loses h gone session attached lost

theorem perform_loses (h : Hub) (d : Deed) (session : SessionId) (attached : h.sessions.isAttached session = true)
    (lost : (h.perform d).sessions.isAttached session = false) :
    (h.callDeeds d = [.failSession session] ∧ (d = .detach session ∨ ∃ bytes, d = .frame bytes)) ∨
      (h.callDeeds d = [.failAll] ∧ ∃ reason, d = .shutdown reason) := by
  have kept : ∀ after : Hub, after.sessions.isAttached session = true → after.sessions.isAttached session ≠ false := by
    intro after still gone
    rw [still] at gone
    cases gone
  cases d with
  | post asked => exact absurd lost (kept _ (by rw [perform, post_sessions, attached]))
  | frame bytes => exact Or.inl ⟨frame_loses h bytes session attached lost, Or.inr ⟨bytes, rfl⟩⟩
  | detach gone =>
      have sweep := detach_loses h gone session attached lost
      have same : gone = session := by
        simp only [sweeps] at sweep
        split at sweep
        · cases sweep
          rfl
        · cases sweep
      exact Or.inl ⟨sweep, Or.inl (by rw [same])⟩
  | shutdown reason =>
      simp only [perform, shutdown] at lost
      cases closed : h.isClosed with
      | true =>
          rw [closed, if_pos rfl, attached] at lost
          cases lost
      | false => exact Or.inr ⟨by simp [callDeeds, closed], reason, rfl⟩
  | attach id target => exact absurd lost (kept _ (SessionTable.register_keeps session id target attached))
  | purge => exact absurd lost (kept _ (SessionTable.purge_keeps session attached))
  | lieDown target => exact absurd lost (kept _ (by rw [perform, SessionTable.lie_down_keeps, attached]))
  | getUp sleeper => exact absurd lost (kept _ (by rw [perform, SessionTable.get_up_keeps, attached]))
  | _ => exact absurd lost (kept _ attached)

theorem performs_loses (h : Hub) (deeds : List Deed) (session : SessionId)
    (attached : h.sessions.isAttached session = true)
    (lost : (h.performs deeds).sessions.isAttached session = false) :
    ∃ d ∈ deeds, d = .detach session ∨ (∃ bytes, d = .frame bytes) ∨ ∃ reason, d = .shutdown reason := by
  induction deeds generalizing h with
  | nil =>
      rw [performs, List.foldl_nil, attached] at lost
      cases lost
  | cons d deeds ih =>
      cases still : (h.perform d).sessions.isAttached session with
      | true =>
          obtain ⟨other, listed, kind⟩ := ih (h.perform d) still lost
          exact ⟨other, List.mem_cons_of_mem d listed, kind⟩
      | false =>
          refine ⟨d, List.mem_cons_self, ?_⟩
          rcases perform_loses h d session attached still with ⟨_, kind⟩ | ⟨_, kind⟩
          · exact kind.elim Or.inl fun frame => Or.inr (Or.inl frame)
          · exact Or.inr (Or.inr kind)

theorem register_deed (h : Hub) (d : Deed) (id : UInt64) (method : String) (session : Option SessionId)
    (member : .register id method session ∈ h.callDeeds d) :
    ∃ asked, d = .post asked ∧ h.refusal? asked = none ∧ session = asked.scope := by
  have swept : ∀ gone, .register id method session ∉ h.sweeps gone := by
    intro gone
    simp only [sweeps]
    split <;> simp
  cases d with
  | post asked =>
      simp only [callDeeds] at member
      split at member
      · cases member
      · simp at member
      · next accepted _ =>
          simp only [List.mem_cons, List.not_mem_nil, or_false, reduceCtorEq, false_or,
            CallDeed.register.injEq] at member
          exact ⟨asked, rfl, accepted, member.2.2⟩
  | frame bytes =>
      simp only [callDeeds] at member
      split at member
      · split at member <;> simp at member
      · cases gone : h.gone? bytes with
        | none =>
            rw [gone] at member
            cases member
        | some other =>
            rw [gone] at member
            exact absurd member (swept other)
  | detach gone => exact absurd member (swept gone)
  | shutdown reason =>
      simp only [callDeeds] at member
      split at member <;> simp at member
  | collect | abandon => simp [callDeeds] at member
  | _ => cases member

theorem refusal_attached (h : Hub) (asked : Asked) (session : SessionId) (scope : asked.scope = some session)
    (accepted : h.refusal? asked = none) : h.sessions.isAttached session = true := by
  have stands := scope_stands accepted
  rw [scope, scopeFault?] at stands
  cases found : h.sessions.scope session with
  | ok s => exact SessionTable.scope_ok session s found
  | error fault => simp [found] at stands

theorem perform_covered (h : Hub) (d : Deed) (matched : h.calls.Matched) (covered : h.Covered) :
    (h.perform d).Covered := by
  intro e member session scope
  rw [perform_table] at member
  by_cases old : e.ticket < h.calls.nextTicket
  · obtain ⟨pending, stays⟩ := CallTable.performs_pending_old matched _ e member old
    have attached := covered e pending session scope
    cases still : (h.perform d).sessions.isAttached session with
    | true => rfl
    | false =>
        rcases perform_loses h d session attached still with ⟨fails, _⟩ | ⟨fails, _⟩
        · rw [fails] at stays
          simp [fateOf, CallDeed.fate, scope] at stays
        · rw [fails] at stays
          simp [fateOf, CallDeed.fate] at stays
  · obtain ⟨method, registers⟩ := CallTable.performs_pending_new matched _ e member (by omega)
    obtain ⟨asked, rfl, accepted, same⟩ := register_deed h d e.id method e.session registers
    rw [perform, post_sessions]
    exact refusal_attached h asked session (same.symm.trans scope) accepted

theorem performs_covered (h : Hub) (deeds : List Deed) (matched : h.calls.Matched) (covered : h.Covered) :
    (h.performs deeds).Covered := by
  induction deeds generalizing h with
  | nil => exact covered
  | cons d deeds ih =>
      apply ih (h.perform d) _ (perform_covered h d matched covered)
      rw [perform_table]
      exact CallTable.performs_matched matched _

end Hub

namespace Connection

section
variable {c : Connection} {a : Act}

theorem act_covered (sound : c.Sound) (covered : c.hub.Covered) (a : Act) : (c.act a).hub.Covered := by
  obtain ⟨deeds, made, _⟩ := act_deeds sound.kept a
  rw [made]
  exact Hub.performs_covered c.hub deeds sound.matched covered

theorem run_covered (sound : c.Sound) (covered : c.hub.Covered) (acts : List Act) : (c.run acts).hub.Covered := by
  induction acts generalizing c with
  | nil => exact covered
  | cons a acts ih => exact ih (act_sound sound a) (act_covered sound covered a)

theorem refusal_unattached (h : Hub) (asked : Asked) (session : SessionId) (scope : asked.scope = some session)
    (unattached : h.sessions.isAttached session = false) :
    ∃ fault, h.refusal? asked = some fault ∧
      (h.isClosed = false → asked.method.isEmpty = false → fault = .sessionNotFound session) := by
  have refused := SessionTable.scope_refused session unattached
  simp only [Hub.refusal?, Hub.scopeFault?, scope, refused]
  cases h.isClosed with
  | true => exact ⟨.connectionClosed, rfl, fun isOpen => by cases isOpen⟩
  | false =>
      cases asked.method.isEmpty with
      | true => exact ⟨.invalidArgument "method must not be empty", rfl, fun _ named => by cases named⟩
      | false => exact ⟨.sessionNotFound session, rfl, fun _ _ => rfl⟩

theorem heard_no_trigger (r : Response) (heard : c.hears? a = some r) : c.trigger? a = none := by
  cases a with
  | move activity =>
      cases activity with
      | reader =>
          simp only [hears?] at heard
          simp only [trigger?]
          split at heard
          · cases heard
          · split at heard
            · next received => simp only [received]
            · cases heard
      | writer | caller | handler => cases heard
  | _ => cases heard

theorem detach_no_trigger (session : SessionId) (cancel : Option Token) (held : c.isHeld = true) :
    c.trigger? (.begin (.detach session cancel)) = none := by
  have still : (c.act (.begin (.detach session cancel))).isHeld = true := start_held held (.detach session cancel)
  simp [trigger?, still]

theorem closing_trigger (kept : c.Kept) (a : Act) (isOpen : c.hub.isClosed = false)
    (closed : (c.act a).hub.isClosed = true) :
    ∃ reason, c.trigger? a = some reason := by
  obtain ⟨deeds, made, allowed, _⟩ := act_deeds kept a
  rw [made] at closed
  obtain ⟨reason, member⟩ := Hub.performs_closes c.hub deeds isOpen closed
  exact ⟨reason, (allowed _ member).2⟩

theorem closing_fate (sound : c.Sound) (a : Act) (isOpen : c.hub.isClosed = false)
    (closed : (c.act a).hub.isClosed = true) :
    ∃ calls, (c.act a).hub.calls = c.hub.calls.performs calls ∧
      ∀ e ∈ c.hub.calls.pending, fateOf calls e = some (.error .connectionClosed) := by
  have held := held_of_open sound.kept isOpen
  obtain ⟨reason, trigger⟩ := closing_trigger sound.kept a isOpen closed
  obtain ⟨calls, table, causes⟩ := act_table sound.kept a
  refine ⟨calls, table, ?_⟩
  intro e pending
  have next := act_sound sound a
  have empty := next.matched.closed (next.closed closed)
  cases fate : fateOf calls e with
  | none =>
      have stays := CallTable.performs_stays sound.matched calls e pending fate
      rw [← table, empty] at stays
      cases stays
  | some outcome =>
      obtain ⟨d, listed, gives⟩ := fate_of_deed calls e outcome fate
      have cause := causes d listed
      cases d with
      | resolve id r =>
          rw [heard_no_trigger r cause.1] at trigger
          cases trigger
      | failSession session =>
          rcases cause with ⟨other, cancel, rfl⟩ | ⟨rfl, bytes, received⟩
          · rw [detach_no_trigger other cancel held] at trigger
            cases trigger
          · simp [trigger?, received] at trigger
      | cancel => exact absurd cause id
      | register | abandon =>
          simp only [CallDeed.fate] at gives
          split at gives
          · exact gives.symm
          · cases gives
      | failAll => exact gives.symm
      | allocate | collect => cases gives

theorem detaching_calls (sound : c.Sound) (a : Act) (session : SessionId)
    (attached : c.hub.sessions.isAttached session = true) (lost : (c.act a).hub.sessions.isAttached session = false)
    (isOpen : (c.act a).hub.isClosed = false) :
    ∃ calls, (c.act a).hub.calls = c.hub.calls.performs (.failSession session :: calls) := by
  obtain ⟨deeds, made, allowed, _⟩ := act_deeds sound.kept a
  have swept : c.hub.sweeps session = [.failSession session] := by simp [Hub.sweeps, attached]
  have gone := lost
  rw [made] at gone
  obtain ⟨d, member, kind⟩ := Hub.performs_loses c.hub deeds session attached gone
  have cause := allowed d member
  rcases kind with rfl | ⟨bytes, rfl⟩ | ⟨reason, rfl⟩
  · obtain ⟨cancel, rfl⟩ := cause
    have hub : (c.act (.begin (.detach session cancel))).hub = (Caller.beginDetach session cancel c.clock c.hub).2 :=
      enter_open_hub _ isOpen
    rw [hub]
    rcases begin_detach_hub session cancel c.clock c.hub with only | ⟨asked, posts⟩
    · exact ⟨[], by rw [only, Hub.detach_table, swept]⟩
    · refine ⟨(c.hub.detachHere session).2.callDeeds (.post asked), ?_⟩
      rw [posts, Hub.post_table, Hub.detach_table, swept, ← CallTable.performs_append]
      rfl
  · obtain ⟨rfl, wasOpen, received⟩ := cause
    have hub := reader_frame sound.kept bytes wasOpen received
    rw [hub] at lost
    refine ⟨[], ?_⟩
    rw [hub, ← Hub.frame_loses c.hub bytes session attached lost]
    exact Hub.perform_table c.hub (.frame bytes)
  · rw [made, Hub.performs_shutdown c.hub deeds reason member] at isOpen
    cases isOpen

theorem lost_fate (sound : c.Sound) (covered : c.hub.Covered) (a : Act) (e : Entry) (pending : e ∈ c.hub.calls.pending)
    (session : SessionId) (scope : e.session = some session)
    (lost : (c.act a).hub.sessions.isAttached session = false) :
    ∃ calls, (c.act a).hub.calls = c.hub.calls.performs calls ∧
      fateOf calls e =
        some (.error (if (c.act a).hub.isClosed then .connectionClosed else .sessionDetached session)) := by
  have wasOpen : c.hub.isClosed = false := by
    cases was : c.hub.isClosed with
    | false => rfl
    | true =>
        rw [sound.matched.closed (sound.closed was)] at pending
        cases pending
  cases closed : (c.act a).hub.isClosed with
  | true =>
      obtain ⟨calls, table, fates⟩ := closing_fate sound a wasOpen closed
      exact ⟨calls, table, fates e pending⟩
  | false =>
      obtain ⟨calls, table⟩ := detaching_calls sound a session (covered e pending session scope) lost closed
      exact ⟨_, table, by simp [fateOf, CallDeed.fate, scope]⟩

end

theorem calls_end_with_session (config : Config) (link : Link) (acts : List Act) :
    let c := (ofLink config link).run acts
    (∀ e ∈ c.hub.calls.pending, ∀ session, e.session = some session → c.hub.sessions.isAttached session = true) ∧
    (∀ operation cancel asked session, operation.asks? = some (cancel, asked) → asked.scope = some session →
      c.hub.sessions.isAttached session = false →
      c.Rejects operation fun fault => c.hub.isClosed = false → asked.method.isEmpty = false →
        c.clock.hasFired cancel = false → fault = .sessionNotFound session) ∧
    ∀ a, ∀ e ∈ c.hub.calls.pending, ∀ session, e.session = some session →
      (c.act a).hub.sessions.isAttached session = false → ∀ later,
      (∀ other ∈ ((c.act a).run later).hub.calls.pending, other.ticket ≠ e.ticket) ∧
        ∀ s ∈ ((c.act a).run later).hub.calls.slots, s.call.ticket = e.ticket →
          s.outcome = some (.error (if (c.act a).hub.isClosed then .connectionClosed
            else .sessionDetached session)) := by
  have initial := initial_sound config link
  have sound := run_sound initial acts
  have covered : ((ofLink config link).run acts).hub.Covered :=
    run_covered initial (fun e member => by cases member) acts
  refine ⟨covered, ?_, ?_⟩
  · intro operation cancel asked session asks scope unattached
    obtain ⟨fault, refused, cause⟩ :=
      refusal_unattached ((ofLink config link).run acts).hub asked session scope unattached
    apply begin_rejects sound.kept operation cancel asked asks fault refused
    · exact fun _ isOpen named _ => cause isOpen named
    · intro fired _ _ live
      rw [fired] at live
      cases live
  · intro a e pending session scope lost later
    obtain ⟨calls, table, fate⟩ := lost_fate sound covered a e pending session scope lost
    exact run_settled sound calls table e pending _ fate later

def scopedExchange : List Act :=
  [.begin (.attach ⟨"T"⟩ none), .move .writer, .move .writer, .move (.caller 0),
    .far (.hand (.frame (Utf8.encode "\x7b\"id\":1,\"result\":\x7b\"sessionId\":\"S\"\x7d\x7d"))), .move .reader,
    .move (.caller 0), .begin (.send ⟨"Page.reload", .empty, some ⟨"S"⟩⟩)]

theorem calls_end_with_session_exchange :
    ⟨2, 1, some ⟨"S"⟩⟩ ∈ ((ofLink {} inMemory).run scopedExchange).hub.calls.pending ∧
    ((ofLink {} inMemory).run scopedExchange).hub.sessions.isAttached ⟨"S"⟩ = true ∧
    (∀ later, ∀ s ∈
      ((((ofLink {} inMemory).run scopedExchange).act (.begin (.detach ⟨"S"⟩ none))).run later).hub.calls.slots,
      s.call.ticket = 1 → s.outcome = some (.error (.sessionDetached ⟨"S"⟩))) ∧
    ((ofLink {} inMemory).run scopedExchange).Rejects (.send ⟨"Page.reload", .empty, some ⟨"U"⟩⟩)
      (· = .sessionNotFound ⟨"U"⟩) := by
  obtain ⟨attached, rejects, ends⟩ := calls_end_with_session {} inMemory scopedExchange
  have pending : ⟨2, 1, some ⟨"S"⟩⟩ ∈ ((ofLink {} inMemory).run scopedExchange).hub.calls.pending := by decide +kernel
  have lost : (((ofLink {} inMemory).run scopedExchange).act (.begin (.detach ⟨"S"⟩ none))).hub.sessions.isAttached
      ⟨"S"⟩ =
      false := by decide +kernel
  have stillOpen : (((ofLink {} inMemory).run scopedExchange).act (.begin (.detach ⟨"S"⟩ none))).hub.isClosed =
      false := by
    decide +kernel
  have unknown : ((ofLink {} inMemory).run scopedExchange).hub.sessions.isAttached ⟨"U"⟩ = false := by decide +kernel
  have isOpen : ((ofLink {} inMemory).run scopedExchange).hub.isClosed = false := by decide +kernel
  refine ⟨pending, attached _ pending ⟨"S"⟩ rfl, ?_, ?_⟩
  · intro later s member ticket
    have ended := (ends _ _ pending ⟨"S"⟩ rfl lost later).2 s member ticket
    rw [stillOpen] at ended
    exact ended
  · obtain ⟨hub, fault, finished, why⟩ :=
      rejects (.send ⟨"Page.reload", .empty, some ⟨"U"⟩⟩) none ⟨"Page.reload", .empty, some ⟨"U"⟩⟩ ⟨"U"⟩ rfl rfl unknown
    exact ⟨hub, fault, finished, why isOpen (by decide) (by simp [Clock.hasFired])⟩

end Connection

end DevTools
