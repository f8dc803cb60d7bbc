import DevTools.Proofs.Call.History
import DevTools.Proofs.Connection.ActDeed

set_option autoImplicit false

namespace DevTools

namespace Hub

def sweeps (h : Hub) (session : SessionId) : List CallDeed :=
  if h.sessions.isAttached session then [.failSession session] else []

-- An event of a detached session says nothing.
def gone? (h : Hub) (bytes : Bytes) : Option SessionId :=
  match Message.decode bytes with
  | .ok (.event e) => if e.session.any h.sessions.isDetached then none else e.detaches?
  | _ => none

def callDeeds (h : Hub) : Deed → List CallDeed
  | .post asked =>
      match h.refusal? asked, asked.params.payload? with
      | some _, _ => []
      | none, .error _ => [.allocate]
      | none, .ok _ => [.allocate, .register h.calls.nextId asked.method asked.scope]
  | .frame bytes =>
      match Message.decode bytes with
      | .ok (.response r) => if h.calls.isPending r.id then [.resolve r.id r] else []
      | _ => (h.gone? bytes).elim [] h.sweeps
  | .detach session => h.sweeps session
  | .collect call => [.collect call]
  | .abandon call => [.abandon call]
  | .shutdown _ => if h.isClosed then [] else [.failAll]
  | _ => []

theorem detach_attached (h : Hub) (session : SessionId) (attached : h.sessions.isAttached session = true) :
    h.detachHere session =
      (true, { h with sessions := h.sessions.markWhere (·.id == session), calls := (h.calls.failSession session).2 }) := by
  simp only [SessionTable.isAttached, Option.any_eq_true, Bool.not_eq_true'] at attached
  obtain ⟨s, known, isOn⟩ := attached
  simp [detachHere, SessionTable.markDetached, known, isOn]

theorem detach_unattached (h : Hub) (session : SessionId) (unattached : h.sessions.isAttached session = false) :
    h.detachHere session = (false, h) := by
  simp only [detachHere, SessionTable.markDetached, SessionTable.isAttached] at unattached ⊢
  cases known : h.sessions.get? session with
  | none => rfl
  | some s =>
      rw [known] at unattached
      have off : s.detached = true := by simpa using unattached
      simp [off]

theorem detach_table (h : Hub) (session : SessionId) :
    (h.detachHere session).2.calls = h.calls.performs (h.sweeps session) := by
  cases attached : h.sessions.isAttached session with
  | true => simp only [detach_attached h session attached, sweeps, attached, if_true]; rfl
  | false => simp only [detach_unattached h session attached, sweeps, attached, Bool.false_eq_true, if_false]; rfl

theorem dispatch_rest (h : Hub) (e : Event) : (h.dispatch e).calls = h.calls ∧ (h.dispatch e).sessions = h.sessions ∧
    (h.dispatch e).router = (h.router.dispatch e).2 ∧
    (h.dispatch e).stats.detachedSessionFrames = h.stats.detachedSessionFrames := by
  simp only [dispatch]
  split <;> exact ⟨rfl, rfl, rfl, rfl⟩

theorem event_table (h : Hub) (e : Event) :
    (h.takeEvent e).calls =
      h.calls.performs ((if e.session.any h.sessions.isDetached then none else e.detaches?).elim [] h.sweeps) := by
  simp only [takeEvent]
  split
  · rfl
  · rw [(dispatch_rest _ e).1]
    rcases apply_hub h e with ⟨none_, same | ⟨session, target, same⟩⟩ | ⟨session, goes, same⟩
    · rw [same, none_]
      rfl
    · rw [same, none_]
      rfl
    · rw [same, goes]
      exact detach_table h session

theorem post_table (h : Hub) (asked : Asked) :
    (h.post asked).2.calls = h.calls.performs (h.callDeeds (.post asked)) := by
  simp only [post_eq, callDeeds]
  cases h.refusal? asked with
  | some fault => rfl
  | none =>
      cases asked.params.payload? with
      | error fault => rfl
      | ok params =>
          simp only [CallTable.performs, List.foldl_cons, List.foldl_nil, CallTable.perform, CallTable.allocate]
          split
          · next refused => rw [refused]
          · next registered => rw [registered]

theorem perform_table (h : Hub) (d : Deed) : (h.perform d).calls = h.calls.performs (h.callDeeds d) := by
  cases d with
  | post asked => exact post_table h asked
  | detach session => exact detach_table h session
  | shutdown reason =>
      simp only [perform, shutdown, callDeeds]
      split <;> rfl
  | frame bytes =>
      simp only [perform, takeFrame, callDeeds, gone?]
      cases decoded : Message.decode bytes with
      | error fault => rfl
      | ok message =>
          cases message with
          | request asked => rfl
          | event e => exact event_table h e
          | response r =>
              simp only [takeResponse, CallTable.resolve]
              cases pending : h.calls.isPending r.id with
              | true => rfl
              | false => rfl
  | _ => rfl

theorem performs_table (h : Hub) (deeds : List Deed) :
    ∃ calls : List CallDeed, (h.performs deeds).calls = h.calls.performs calls ∧
      ∀ d ∈ calls, ∃ (before : Hub) (deed : Deed), deed ∈ deeds ∧ d ∈ before.callDeeds deed := by
  induction deeds generalizing h with
  | nil => exact ⟨[], rfl, by simp⟩
  | cons deed deeds ih =>
      obtain ⟨calls, made, causes⟩ := ih (h.perform deed)
      refine ⟨h.callDeeds deed ++ calls, ?_, ?_⟩
      · rw [CallTable.performs_append, ← perform_table]
        exact made
      · intro d member
        rcases List.mem_append.mp member with now | later
        · exact ⟨h, deed, List.mem_cons_self, now⟩
        · obtain ⟨before, other, listed, among⟩ := causes d later
          exact ⟨before, other, List.mem_cons_of_mem deed listed, among⟩

theorem perform_refuses (h : Hub) (d : Deed) (refuses : h.isClosed = true → h.calls.closed = true)
    (closed : (h.perform d).isClosed = true) : (h.perform d).calls.closed = true := by
  cases was : h.isClosed with
  | true =>
      rw [perform_table]
      exact CallTable.performs_closed _ (refuses was)
  | false =>
      have none_ : h.reason = none := by simpa [isClosed] using was
      cases d with
      | shutdown reason => simp [perform, shutdown, was, CallTable.failAll]
      | _ => simp [isClosed, perform_reason, none_, Deed.closes?] at closed

theorem performs_refuses (h : Hub) (deeds : List Deed) (refuses : h.isClosed = true → h.calls.closed = true) :
    (h.performs deeds).isClosed = true → (h.performs deeds).calls.closed = true := by
  induction deeds generalizing h with
  | nil => exact refuses
  | cons d deeds ih => exact ih (h.perform d) (perform_refuses h d refuses)

end Hub

namespace Connection

-- Why an act may do a deed to the table.
def Causes (c : Connection) (a : Act) : CallDeed → Prop
  | .resolve id r => c.hears? a = some r ∧ id = r.id
  | .register .. | .allocate => ∃ operation, a = .begin operation
  | .failSession _ => (∃ session cancel, a = .begin (.detach session cancel)) ∨
      (a = .move .reader ∧ ∃ bytes, c.link.receive.1 = .frame bytes)
  | .failAll => ∃ reason, c.trigger? a = some reason
  | .cancel _ => False
  | .collect _ | .abandon _ => True

structure Sound (c : Connection) : Prop where
  kept : c.Kept
  matched : c.hub.calls.Matched
  closed : c.hub.isClosed = true → c.hub.calls.closed = true

theorem initial_sound (config : Config) (link : Link) : (ofLink config link).Sound :=
  ⟨initial_kept config link, CallTable.empty_matched, fun closed => by cases closed⟩

section
variable {c : Connection} {a : Act}

theorem sweeps_cause (h : Hub) (session : SessionId) (d : CallDeed) (member : d ∈ h.sweeps session)
    (cause : ∀ session, c.Causes a (.failSession session)) : c.Causes a d := by
  simp only [Hub.sweeps] at member
  split at member
  · rw [List.mem_singleton.mp member]
    exact cause session
  · cases member

theorem deed_cause (h : Hub) (deed : Deed) (allowed : c.Allows a deed) (d : CallDeed) (member : d ∈ h.callDeeds deed) :
    c.Causes a d := by
  cases deed with
  | post asked =>
      simp only [Hub.callDeeds] at member
      split at member
      · cases member
      · rw [List.mem_singleton.mp member]
        exact allowed
      · simp only [List.mem_cons, List.not_mem_nil, or_false] at member
        rcases member with rfl | rfl <;> exact allowed
  | frame bytes =>
      obtain ⟨reads, isOpen, received⟩ := allowed
      simp only [Hub.callDeeds] at member
      split at member
      · next r decoded =>
          split at member
          · rw [List.mem_singleton.mp member]
            exact ⟨by simp only [reads, hears?, isOpen, received, decoded, Bool.false_eq_true, if_false], rfl⟩
          · cases member
      · cases gone : h.gone? bytes with
        | none =>
            rw [gone] at member
            cases member
        | some session =>
            rw [gone] at member
            exact sweeps_cause h session d member fun _ => Or.inr ⟨reads, bytes, received⟩
  | detach session =>
      obtain ⟨cancel, begins⟩ := allowed
      exact sweeps_cause h session d member fun _ => Or.inl ⟨session, cancel, begins⟩
  | collect call | abandon call =>
      rw [List.mem_singleton.mp member]
      trivial
  | shutdown reason =>
      simp only [Hub.callDeeds] at member
      split at member
      · cases member
      · rw [List.mem_singleton.mp member]
        exact ⟨reason, allowed.2⟩
  | _ => cases member

theorem act_table (kept : c.Kept) (a : Act) :
    ∃ calls : List CallDeed, (c.act a).hub.calls = c.hub.calls.performs calls ∧ ∀ d ∈ calls, c.Causes a d := by
  obtain ⟨deeds, made, allowed, _⟩ := act_deeds kept a
  obtain ⟨calls, table, causes⟩ := Hub.performs_table c.hub deeds
  refine ⟨calls, by rw [made]; exact table, ?_⟩
  intro d member
  obtain ⟨before, deed, listed, among⟩ := causes d member
  exact deed_cause before deed (allowed deed listed) d among

theorem hears_hub (kept : c.Kept) (r : Response) (heard : c.hears? a = some r) :
    (c.act a).hub = c.hub.takeResponse r := by
  cases a with
  | move activity =>
      cases activity with
      | reader =>
          simp only [hears?] at heard
          split at heard
          · cases heard
          · next isOpen =>
              split at heard
              · next bytes received =>
                  rw [reader_frame kept bytes (eq_false_of_ne_true isOpen) received]
                  split at heard
                  · next decoded =>
                      cases heard
                      simp only [Hub.takeFrame, decoded]
                  · cases heard
              · cases heard
      | writer | caller | handler => cases heard
  | _ => cases heard

theorem act_sound (sound : c.Sound) (a : Act) : (c.act a).Sound := by
  refine ⟨act_kept sound.kept a, ?_, ?_⟩
  · obtain ⟨calls, table, _⟩ := act_table sound.kept a
    rw [table]
    exact CallTable.performs_matched sound.matched calls
  · obtain ⟨deeds, made, _⟩ := act_deeds sound.kept a
    rw [made]
    exact Hub.performs_refuses c.hub deeds sound.closed

theorem run_sound (sound : c.Sound) (acts : List Act) : (c.run acts).Sound := by
  induction acts generalizing c with
  | nil => exact sound
  | cons a acts ih => exact ih (act_sound sound a)

theorem act_ticket_le (kept : c.Kept) (a : Act) : c.hub.calls.nextTicket ≤ (c.act a).hub.calls.nextTicket := by
  obtain ⟨calls, table, _⟩ := act_table kept a
  rw [table]
  exact CallTable.performs_ticket_le calls

theorem run_pending_old (sound : c.Sound) (acts : List Act) (e : Entry) (member : e ∈ (c.run acts).hub.calls.pending)
    (old : e.ticket < c.hub.calls.nextTicket) : e ∈ c.hub.calls.pending := by
  induction acts generalizing c with
  | nil => exact member
  | cons a acts ih =>
      obtain ⟨calls, table, _⟩ := act_table sound.kept a
      have bound := act_ticket_le sound.kept a
      have present := ih (act_sound sound a) member (by omega)
      rw [table] at present
      exact (CallTable.performs_pending_old sound.matched calls e present old).1

theorem run_outcome_old (sound : c.Sound) (acts : List Act) (after : Slot)
    (member : after ∈ (c.run acts).hub.calls.slots)
    (old : after.call.ticket < c.hub.calls.nextTicket) :
    ∃ s ∈ c.hub.calls.slots, s.call = after.call ∧ ∀ o, s.outcome = some o → after.outcome = some o := by
  induction acts generalizing c with
  | nil => exact ⟨after, member, rfl, fun _ settled => settled⟩
  | cons a acts ih =>
      obtain ⟨calls, table, _⟩ := act_table sound.kept a
      have bound := act_ticket_le sound.kept a
      obtain ⟨s, held, same, keeps⟩ := ih (act_sound sound a) member (by omega)
      rw [table] at held
      obtain ⟨first, present, call, kept, _⟩ :=
        CallTable.performs_slot_old sound.matched calls s held (by rw [same]; exact old)
      exact ⟨first, present, call.trans same, fun o settled => keeps o (kept o settled)⟩

theorem run_settled (sound : c.Sound) (calls : List CallDeed) (table : (c.act a).hub.calls = c.hub.calls.performs calls)
    (e : Entry) (member : e ∈ c.hub.calls.pending) (outcome : Outcome) (fate : fateOf calls e = some outcome)
    (later : List Act) :
    (∀ other ∈ ((c.act a).run later).hub.calls.pending, other.ticket ≠ e.ticket) ∧
      ∀ s ∈ ((c.act a).run later).hub.calls.slots, s.call.ticket = e.ticket → s.outcome = some outcome := by
  have next := act_sound sound a
  have bound := act_ticket_le sound.kept a
  obtain ⟨own, held, ticket, _⟩ := CallTable.matched_entry_slot sound.matched e member
  have old : e.ticket < c.hub.calls.nextTicket := by
    rw [← ticket]
    exact sound.matched.below own held
  constructor
  · intro other present same
    have early := run_pending_old next later other present (by omega)
    rw [table] at early
    obtain ⟨pending, stays⟩ := CallTable.performs_pending_old sound.matched calls other early (by omega)
    rw [CallTable.matched_entry_unique sound.matched other e pending member same, fate] at stays
    cases stays
  · intro s present same
    obtain ⟨t, early, call, keeps⟩ := run_outcome_old next later s present (by omega)
    rw [table] at early
    obtain ⟨first, _, firstCall, _, fates⟩ :=
      CallTable.performs_slot_old sound.matched calls t early (by rw [call]; omega)
    exact keeps outcome ((fates e member (by rw [firstCall, call, same])).trans fate)

end

end Connection

end DevTools
